import FrcRobot.MotorLinkStages

set_option autoImplicit false

/- Which timers a MotorLink has armed, while it is executing a command and once it
has worked off all of them. -/
namespace FrcRobot.MotorLink

open StagedServer

variable {K : Type*}

/-- Only an enabled controller that is attached has its timer armed. So it is
when a link has been constructed, and whenever a call has been completed. -/
def Consistent (state : LinkState K) : Prop :=
  ∀ id, (state.controls id).timerArmed = true →
    state.link.spdControlEnabled = true ∧ state.link.spdControl = some id

/-- The same state without a controller that runs. -/
def disarmed (state : LinkState K) : LinkState K where
  link := { state.link with spdControlEnabled := false }
  controls := fun id => (state.controls id).cancel

theorem cancel_of_unarmed {control : MotorControl K} (unarmed : control.timerArmed = false) :
    control.cancel = control := by
  cases control
  cases unarmed
  rfl

/-- A state without a controller that runs. -/
theorem disarmed_eq {state : LinkState K} (consistent : Consistent state)
    (disabled : state.link.spdControlEnabled = false) : disarmed state = state := by
  obtain ⟨link, controls⟩ := state
  have unarmed : ∀ id, (controls id).timerArmed = false := by
    intro id
    by_contra armed
    rw [Bool.not_eq_false] at armed
    rw [(consistent id armed).1] at disabled
    cases disabled
  have same : (fun id => (controls id).cancel) = controls :=
    funext fun id => cancel_of_unarmed (unarmed id)
  simp only [disarmed, same]
  cases link
  cases disabled
  rfl

section CallControl

variable {state called : LinkState K} {method : MotorControl K → MotorControl K}

theorem callControl_disarmed (commutes : ∀ control, (method control).cancel = method control.cancel)
    (state : LinkState K) :
    (disarmed state).callControl method = (state.callControl method).map disarmed := by
  cases attached : state.link.spdControl with
  | none => simp [LinkState.callControl, disarmed, attached]
  | some id =>
      have attachedToo : (disarmed state).link.spdControl = some id := attached
      rw [LinkState.callControl_eq attached, LinkState.callControl_eq attachedToo, Option.map_some]
      simp only [disarmed, Option.some.injEq, LinkState.mk.injEq, true_and]
      funext other
      by_cases here : other = id
      · subst here
        simp [commutes]
      · simp [here]

/-- Starting and cancelling make no difference once nothing runs any more. -/
theorem disarmed_callControl (through : state.callControl method = some called)
    (vanishes : ∀ control, (method control).cancel = control.cancel) :
    disarmed called = disarmed state := by
  obtain ⟨id, _, rfl⟩ := callControl_iff.mp through
  simp only [disarmed, LinkState.mk.injEq, true_and]
  funext other
  by_cases here : other = id
  · subst here
    simp [vanishes]
  · simp [here]

theorem spdControl_of_disarmed {early late : LinkState K} (same : disarmed early = disarmed late) :
    early.link.spdControl = late.link.spdControl := by
  have pointers : (disarmed early).link.spdControl = (disarmed late).link.spdControl := by rw [same]
  exact pointers

/-- A method that leaves the timer alone, called on two states that differ in
what runs. -/
theorem callControl_behind {late : LinkState K}
    (through : state.callControl method = some called) (same : disarmed state = disarmed late)
    (commutes : ∀ control, (method control).cancel = method control.cancel) :
    ∃ other, late.callControl method = some other ∧ disarmed called = disarmed other := by
  have both := callControl_disarmed commutes state
  rw [same, callControl_disarmed commutes late, through, Option.map_some] at both
  obtain ⟨other, throughToo, agree⟩ := Option.map_eq_some_iff.mp both
  exact ⟨other, throughToo, agree.symm⟩

/-- One that does nothing else than arm or cancel it. -/
theorem callTimer_behind {late : LinkState K}
    (through : state.callControl method = some called) (same : disarmed state = disarmed late)
    (vanishes : ∀ control, (method control).cancel = control.cancel) :
    ∃ other, late.callControl method = some other ∧ disarmed called = disarmed other := by
  obtain ⟨id, attached, _⟩ := callControl_iff.mp through
  have attachedToo := (spdControl_of_disarmed same).symm.trans attached
  have throughToo := LinkState.callControl_eq attachedToo method
  refine ⟨_, throughToo, ?_⟩
  rw [disarmed_callControl through vanishes, same, disarmed_callControl throughToo vanishes]

theorem attached_callControl
    (attached : ∀ id, (state.controls id).timerArmed = true → state.link.spdControl = some id)
    (through : state.callControl method = some called) (id : Nat)
    (armed : (called.controls id).timerArmed = true) : called.link.spdControl = some id := by
  rw [callControl_link through]
  obtain ⟨other, here, rfl⟩ := callControl_iff.mp through
  by_cases same : id = other
  · exact same ▸ here
  · simp only [Function.update_of_ne same] at armed
    exact attached id armed

/-- Cancelling the attached controller leaves no timer armed. -/
theorem unarmed_of_cancel
    (attached : ∀ id, (state.controls id).timerArmed = true → state.link.spdControl = some id)
    (through : state.callControl MotorControl.cancel = some called) (id : Nat) :
    (called.controls id).timerArmed = false := by
  obtain ⟨other, here, rfl⟩ := callControl_iff.mp through
  by_cases same : id = other
  · subst same
    simp
  · simp only [Function.update_of_ne same]
    by_contra armed
    rw [Bool.not_eq_false] at armed
    exact same (Option.some.inj ((attached id armed).symm.trans here))

end CallControl

/-- Releasing a link leaves it without a controller that runs. -/
theorem releaseControl_eq {state freed : LinkState K} (consistent : Consistent state)
    (released : state.releaseControl = some freed) : freed = disarmed state := by
  unfold LinkState.releaseControl at released
  split at released
  · obtain ⟨cancelled, through, rfl⟩ := Option.map_eq_some_iff.mp released
    have unarmed := unarmed_of_cancel (fun id armed => (consistent id armed).2) through
    have settled : Consistent (cancelled.setEnabled false) :=
      fun id armed => absurd ((unarmed id).symm.trans armed) (by decide)
    have vanished : disarmed cancelled = disarmed state :=
      disarmed_callControl through fun _ => rfl
    rw [← disarmed_eq settled rfl, ← vanished]
    rfl
  · rename_i idle
    cases released
    exact (disarmed_eq consistent (by simpa using idle)).symm

/-- The next of the requests that starts or ends speed control starts or stops
it, and so does not depend on the flag. -/
def nextCancels : List (Request K) → Bool
  | [] => false
  | .startSpeedControlImpl _ :: _ | .stopSpeedControlImpl :: _ => true
  | .setSpeedControllerImpl _ :: _ => false
  | .setSpeedImpl _ :: rest | .setEncoderImpl _ :: rest | .reverseMotorImpl :: rest
  | .setSpeedScalarImpl _ :: rest => nextCancels rest

theorem nextCancels_append {requests : List (Request K)} (cancels : nextCancels requests = true)
    (request : Request K) : nextCancels (requests ++ [request]) = true := by
  induction requests with
  | nil => cases cancels
  | cons other rest ih =>
      cases other with
      | startSpeedControlImpl | stopSpeedControlImpl => rfl
      | setSpeedControllerImpl => cases cancels
      | setSpeedImpl | setEncoderImpl | reverseMotorImpl | setSpeedScalarImpl => exact ih cancels

/-- A timer that is armed by now will be cancelled, or goes with a flag that is
going to be set, whatever the flag is now. -/
def Heals (executor : Executor K) : Prop :=
  match executor.executing with
  | some (.clearControlRun _) | some (.setControlTarget _) | some .setControlledMotor
  | some .start | some .enable | some (.disable _) | some (.cancel _) | some .brake
  | some .stop => True
  | some (.test _) | some (.attach _) | some .release => False
  | none | some (.whole _ _) => nextCancels executor.queue = true

/-- The controller has just been cancelled, or has been found out not to run. -/
def Silenced : Option (Stage K) → Prop
  | some (.attach _) | some .release => True
  | _ => False

/-- What the accesses of both threads keep. The flag is not to be trusted while
a client is about to clear it. -/
structure Orderly (trusted : Prop) (executor : Executor K) : Prop where
  attached : ∀ id, (executor.state.controls id).timerArmed = true →
    executor.state.link.spdControl = some id
  armed : ∀ id, (executor.state.controls id).timerArmed = true →
    (trusted ∧ executor.state.link.spdControlEnabled = true) ∨ Heals executor
  silenced : Silenced executor.executing → ∀ id, (executor.state.controls id).timerArmed = false
  lowered : Lowered executor.executing → executor.state.link.spdControlEnabled = false

theorem Orderly.mono {trusted other : Prop} {executor : Executor K}
    (orderly : Orderly trusted executor) (weaker : trusted → other) : Orderly other executor :=
  { orderly with armed := fun id armed => (orderly.armed id armed).imp_left (And.imp_left weaker) }

theorem heals_enqueue {executor : Executor K} (heals : Heals executor) (request : Request K) :
    Heals (executor.enqueue request) := by
  obtain ⟨state, executing, queue⟩ := executor
  cases executing with
  | none => exact nextCancels_append heals request
  | some stage =>
      cases stage with
      | whole => exact nextCancels_append heals request
      | test | attach | release => cases heals
      | _ => trivial

theorem Orderly.enqueue {trusted : Prop} {executor : Executor K}
    (orderly : Orderly trusted executor) (request : Request K) :
    Orderly trusted (executor.enqueue request) :=
  ⟨orderly.attached, fun id armed => (orderly.armed id armed).imp_right (heals_enqueue · request),
    orderly.silenced, orderly.lowered⟩

theorem orderly_idle {state : LinkState K} (consistent : Consistent state) :
    Orderly True ⟨state, none, []⟩ where
  attached id armed := (consistent id armed).2
  armed id armed := .inl ⟨trivial, (consistent id armed).1⟩
  silenced := False.elim
  lowered := False.elim

theorem consistent_of_orderly {state : LinkState K}
    (orderly : Orderly True (⟨state, none, []⟩ : Executor K)) : Consistent state := by
  intro id armed
  refine ⟨?_, orderly.attached id armed⟩
  rcases orderly.armed id armed with ⟨_, enabled⟩ | heals
  · exact enabled
  · cases heals

/-- A state in which no timer is armed is in order, however far a request is. -/
theorem orderly_of_unarmed {trusted : Prop} {executor : Executor K}
    (unarmed : ∀ id, (executor.state.controls id).timerArmed = false)
    (lowered : Lowered executor.executing → executor.state.link.spdControlEnabled = false) :
    Orderly trusted executor where
  attached id armed := absurd ((unarmed id).symm.trans armed) (by decide)
  armed id armed := absurd ((unarmed id).symm.trans armed) (by decide)
  silenced _ := unarmed
  lowered := lowered

/-- The beginning of a request does not change the state. -/
theorem Orderly.begin {trusted : Prop} {state : LinkState K} {request : Request K}
    {rest : List (Request K)} (orderly : Orderly trusted ⟨state, none, request :: rest⟩) :
    Orderly trusted ⟨state, some (begin request), rest⟩ := by
  obtain ⟨attached, armed, _, _⟩ := orderly
  cases request with
  | startSpeedControlImpl | stopSpeedControlImpl =>
      exact ⟨attached, fun _ _ => .inr trivial, False.elim, False.elim⟩
  | setSpeedControllerImpl =>
      refine ⟨attached, fun id here => .inl ((armed id here).resolve_right ?_), False.elim,
        False.elim⟩
      simp [Heals, nextCancels]
  | setSpeedImpl | setEncoderImpl | reverseMotorImpl | setSpeedScalarImpl =>
      exact ⟨attached, armed, False.elim, False.elim⟩

/-- While a request is at such a stage, its timer may be armed. -/
theorem orderly_of_heals {trusted : Prop} {state : LinkState K} {stage : Stage K}
    {queue : List (Request K)}
    (attached : ∀ id, (state.controls id).timerArmed = true → state.link.spdControl = some id)
    (heals : Heals ⟨state, some stage, queue⟩) (goesOn : ¬Silenced (some stage))
    (lowered : Lowered (some stage) → state.link.spdControlEnabled = false) :
    Orderly trusted ⟨state, some stage, queue⟩ where
  attached := attached
  armed _ _ := .inr heals
  silenced ended := absurd ended goesOn
  lowered := lowered

section Serve

variable [Field K]

/-- An access of the queue thread keeps the order, unless it sets a flag that a
client is about to clear, with an armed timer and nothing to cancel it. -/
theorem Orderly.perform {trusted : Prop} {state next : LinkState K} {stage : Stage K}
    {rest : Option (Stage K)} {queue : List (Request K)}
    (orderly : Orderly trusted ⟨state, some stage, queue⟩)
    (waits : stage = .enable → ∀ id, (state.controls id).timerArmed = true →
      trusted ∨ nextCancels queue = true)
    (performed : perform state stage = some (next, rest)) :
    Orderly trusted ⟨next, rest, queue⟩ := by
  obtain ⟨attached, armed, silenced, lowered⟩ := orderly
  cases stage with
  | clearControlRun | setControlTarget | setControlledMotor | start =>
      obtain ⟨called, through, same⟩ := Option.map_eq_some_iff.mp performed
      cases same
      exact orderly_of_heals (attached_callControl attached through) trivial id False.elim
  | brake =>
      cases performed
      exact orderly_of_heals attached trivial id False.elim
  | enable =>
      cases performed
      refine ⟨attached, ?_, False.elim, False.elim⟩
      intro id here
      exact (waits rfl id here).imp_left fun trust => ⟨trust, rfl⟩
  | test spdControl =>
      cases performed
      split
      · exact orderly_of_heals attached trivial id False.elim
      · rename_i off
        rw [Bool.not_eq_true] at off
        refine orderly_of_unarmed ?_ fun _ => off
        intro id
        by_contra on
        rw [Bool.not_eq_false] at on
        rcases armed id on with ⟨_, enabled⟩ | heals
        · rw [off] at enabled
          cases enabled
        · cases heals
  | disable spdControl =>
      cases performed
      exact orderly_of_heals attached trivial id fun _ => rfl
  | cancel spdControl =>
      obtain ⟨called, through, same⟩ := Option.map_eq_some_iff.mp performed
      cases same
      have down := lowered_callControl through lowered
      exact orderly_of_unarmed (unarmed_of_cancel attached through) fun _ => down trivial
  | stop =>
      obtain ⟨called, through, same⟩ := Option.map_eq_some_iff.mp performed
      cases same
      exact orderly_of_unarmed (unarmed_of_cancel attached through) False.elim
  | attach spdControl =>
      cases performed
      exact orderly_of_unarmed (silenced trivial) False.elim
  | release =>
      cases performed
      exact orderly_of_unarmed (silenced trivial) False.elim
  | whole request plain =>
      obtain ⟨after, executed, same⟩ := Option.map_eq_some_iff.mp performed
      cases same
      obtain ⟨controls, pointer, flag⟩ := exec_plain plain executed
      refine ⟨?_, ?_, False.elim, False.elim⟩
      · intro id here
        exact pointer.trans (attached id (controls ▸ here))
      · intro id here
        exact (armed id (controls ▸ here)).imp_left fun on => ⟨on.1, flag.trans on.2⟩

theorem Orderly.serve {trusted : Prop} {executor next : Executor K}
    (orderly : Orderly trusted executor)
    (waits : executor.executing = some .enable →
      ∀ id, (executor.state.controls id).timerArmed = true →
        trusted ∨ nextCancels executor.queue = true)
    (served : serve executor = some next) : Orderly trusted next := by
  obtain ⟨state, executing, queue⟩ := executor
  rcases serve_cases MotorLink.begin MotorLink.perform served with
    ⟨stage, after, rest, here, performed, rfl⟩ | ⟨request, rest, here, first, rfl⟩
  · cases here
    exact orderly.perform (fun same => waits (congrArg some same)) performed
  · cases here
    cases first
    exact orderly.begin

theorem settles_consistent {executor : Executor K} {final : LinkState K}
    (orderly : Orderly True executor) (settles : Settles executor final) : Consistent final :=
  consistent_of_orderly (settles.invariant (Orderly True)
    (fun _ _ inv served => inv.serve (fun _ _ _ => .inl trivial) served) orderly)

theorem exec_disarmed {request : Request K} (plain : control request = none)
    (state : LinkState K) : (disarmed state).exec request = (state.exec request).map disarmed := by
  cases request with
  | setSpeedImpl | setEncoderImpl | reverseMotorImpl | setSpeedScalarImpl => rfl
  | startSpeedControlImpl | setSpeedControllerImpl | stopSpeedControlImpl => cases plain

/-- The late one has a flag and timers that may have been cleared already, and so
may have left out the block of setSpeedControllerImpl. -/
structure Behind (early late : Executor K) : Prop where
  state : disarmed early.state = disarmed late.state
  flag : late.state.link.spdControlEnabled = true → early.state.link.spdControlEnabled = true
  queue : early.queue = late.queue
  executing : early.executing = late.executing ∨ late.state.link.spdControlEnabled = false ∧
    ∃ spdControl, late.executing = some (.attach spdControl) ∧
      (early.executing = some (.disable spdControl) ∨ early.executing = some (.cancel spdControl))

theorem perform_behind {early late next : LinkState K} {stage : Stage K} {rest : Option (Stage K)}
    {queue : List (Request K)}
    (behind : Behind ⟨early, some stage, queue⟩ ⟨late, some stage, queue⟩)
    (performed : perform early stage = some (next, rest)) :
    ∃ after onward, perform late stage = some (after, onward) ∧
      Behind ⟨next, rest, queue⟩ ⟨after, onward, queue⟩ := by
  obtain ⟨same, flag, _, _⟩ := behind
  change disarmed early = disarmed late at same
  have through {called other : LinkState K} {method : MotorControl K → MotorControl K}
      {rest : Option (Stage K)} (first : early.callControl method = some called)
      (second : late.callControl method = some other) (agree : disarmed called = disarmed other) :
      Behind ⟨called, rest, queue⟩ ⟨other, rest, queue⟩ := by
    refine ⟨agree, ?_, rfl, .inl rfl⟩
    rw [callControl_link first, callControl_link second]
    exact flag
  cases stage with
  | clearControlRun | setControlTarget | setControlledMotor =>
      obtain ⟨called, first, here⟩ := Option.map_eq_some_iff.mp performed
      cases here
      obtain ⟨other, second, agree⟩ := callControl_behind first same fun _ => rfl
      exact ⟨other, _, congrArg (Option.map _) second, through first second agree⟩
  | start | cancel | stop =>
      obtain ⟨called, first, here⟩ := Option.map_eq_some_iff.mp performed
      cases here
      obtain ⟨other, second, agree⟩ := callTimer_behind first same fun _ => rfl
      exact ⟨other, _, congrArg (Option.map _) second, through first second agree⟩
  | enable =>
      cases performed
      exact ⟨_, _, rfl, same, fun _ => rfl, rfl, .inl rfl⟩
  | disable | release =>
      cases performed
      exact ⟨_, _, rfl, same, id, rfl, .inl rfl⟩
  | brake =>
      cases performed
      refine ⟨_, _, rfl, ?_, flag, rfl, .inl rfl⟩
      have braked := congrArg (fun state : LinkState K =>
        { state with link := { state.link with talon := some 0 } }) same
      exact braked
  | attach spdControl =>
      cases performed
      refine ⟨_, _, rfl, ?_, flag, rfl, .inl rfl⟩
      have attached := congrArg (fun state : LinkState K =>
        { state with link := { state.link with spdControl := spdControl } }) same
      exact attached
  | test spdControl =>
      cases performed
      refine ⟨_, _, rfl, same, flag, rfl, ?_⟩
      by_cases on : late.link.spdControlEnabled = true
      · rw [if_pos on, if_pos (flag on)]
        exact .inl rfl
      · rw [if_neg on]
        split
        · exact .inr ⟨by simpa using on, spdControl, rfl, .inl rfl⟩
        · exact .inl rfl
  | whole request plain =>
      obtain ⟨called, first, here⟩ := Option.map_eq_some_iff.mp performed
      cases here
      have both := exec_disarmed plain early
      rw [same, exec_disarmed plain late, first, Option.map_some] at both
      obtain ⟨other, second, agree⟩ := Option.map_eq_some_iff.mp both
      refine ⟨other, _, congrArg (Option.map _) second, agree.symm, ?_, rfl, .inl rfl⟩
      rw [(exec_plain plain first).2.2, (exec_plain plain second).2.2]
      exact flag

/-- What has been cleared early makes no difference to what is left, apart from
what runs. -/
theorem settles_behind {early late : Executor K} {final : LinkState K} (behind : Behind early late)
    (settles : Settles early final) :
    ∃ other, Settles late other ∧ disarmed final = disarmed other := by
  refine settles.followed Behind (fun one other => disarmed one = disarmed other) ?_ ?_ behind
  · rintro ⟨state, executing, queue⟩ next ⟨late, lateExecuting, lateQueue⟩ behind served
    obtain ⟨same, flag, queues, stages⟩ := behind
    cases queues
    rcases serve_cases begin perform served with
      ⟨stage, after, rest, here, performed, rfl⟩ | ⟨request, rest, here, first, rfl⟩
    · cases here
      rcases stages with together | ⟨off, spdControl, rfl, skipped | skipped⟩
      · cases together
        obtain ⟨other, onward, taken, related⟩ :=
          perform_behind ⟨same, flag, rfl, .inl rfl⟩ performed
        exact ⟨_, .inr (congrArg (Option.map _) taken), related⟩
      · cases skipped
        cases performed
        refine ⟨_, .inl rfl, same, ?_, rfl, .inr ⟨off, spdControl, rfl, .inr rfl⟩⟩
        exact fun on => absurd (off.symm.trans on) (by decide)
      · cases skipped
        obtain ⟨called, through, same'⟩ := Option.map_eq_some_iff.mp performed
        cases same'
        refine ⟨_, .inl rfl, ?_, ?_, rfl, .inl rfl⟩
        · have vanished : disarmed after = disarmed state :=
            disarmed_callControl through fun _ => rfl
          exact vanished.trans same
        · exact fun on => absurd (off.symm.trans on) (by decide)
    · cases here
      cases first
      rcases stages with together | ⟨_, _, _, none | none⟩
      · cases together
        exact ⟨_, .inr rfl, same, flag, rfl, .inl rfl⟩
      · cases none
      · cases none
  · rintro ⟨state, executing, queue⟩ ⟨late, lateExecuting, lateQueue⟩ behind ⟨idle, empty⟩
    obtain ⟨same, _, queues, stages⟩ := behind
    cases idle
    cases empty
    cases queues
    rcases stages with together | ⟨_, _, _, none | none⟩
    · cases together
      exact ⟨⟨rfl, rfl⟩, same⟩
    · cases none
    · cases none

end Serve

end FrcRobot.MotorLink
