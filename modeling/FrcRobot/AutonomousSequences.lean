import FrcRobot.Interleaving
import FrcRobot.RobotTemplate

set_option autoImplicit false

/- The mode callbacks against the autonomous threads they have started. -/
namespace FrcRobot.AutonomousSequences

open AutoConfig Interleaving PollingScript
open RobotTemplate (Callback)

/-- `requests` is no part of the program: what each thread has asked for. -/
structure Parties where
  robot : RobotTemplate
  localTime : Nat
  requests : List (Nat × AutoRequest)

inductive Action where
  | callback (callback : Callback)
  | elapse (milliseconds : Nat)
  | advance (thread : Nat) (angle : ℚ)

def Parties.sequences (parties : Parties) : List Sequence := parties.robot.global.sequences

def Parties.setSequence (parties : Parties) (thread : Nat) (sequence : Sequence) : Parties :=
  { parties with robot := { parties.robot with global := { parties.robot.global with
      sequences := parties.robot.global.sequences.set thread sequence } } }

/-- Global has created the sensor before it starts any thread. -/
def Parties.reading (parties : Parties) (angle : ℚ) : Reading := ⟨parties.localTime, angle, true⟩

/-- What a statement does outside its own thread. -/
def Parties.perform (parties : Parties) (thread : Nat) (angle : ℚ) : Command → Parties
  | .lightChange alliance =>
      { parties with robot := { parties.robot with
          global := parties.robot.global.lightChange alliance } }
  | command =>
      match command.request (parties.reading angle) with
      | none => parties
      | some request => { parties with requests := parties.requests ++ [(thread, request)] }

def step (parties : Parties) : Action → Option Parties
  | .callback callback => some { parties with robot := parties.robot.call callback }
  | .elapse milliseconds => some { parties with localTime := parties.localTime + milliseconds }
  | .advance thread angle =>
      match parties.sequences[thread]? with
      | none => none
      | some sequence =>
          (sequence.step (parties.reading angle)).map fun taken =>
            match taken.1 with
            | none => parties.setSequence thread taken.2
            | some command => (parties.setSequence thread taken.2).perform thread angle command

def initial (alliance : Alliance) : Parties := ⟨RobotTemplate.initial alliance, 0, []⟩

/-- What one thread has asked for. -/
def Parties.issuedBy (parties : Parties) (thread : Nat) : List (Nat × AutoRequest) :=
  parties.requests.filter fun entry => entry.1 = thread

@[simp] theorem perform_sequences (parties : Parties) (thread : Nat) (angle : ℚ)
    (command : Command) : (parties.perform thread angle command).sequences = parties.sequences := by
  cases command with
  | lightChange alliance => exact Global.lightChange_sequences parties.robot.global alliance
  | sequenceStartTime | desiredFinishTime | sleep => rfl
  | setControlTarget | setControlTargetFromAngle | setSpeed => rfl
  | cockShooterCancel | cockShooterStart => rfl

theorem perform_requests (parties : Parties) (thread : Nat) (angle : ℚ) (command : Command) :
    (parties.perform thread angle command).requests = parties.requests ++
      ((command.request (parties.reading angle)).map fun request => (thread, request)).toList := by
  cases command with
  | lightChange | sequenceStartTime | desiredFinishTime | sleep => exact (List.append_nil _).symm
  | setControlTarget | setControlTargetFromAngle | setSpeed => rfl
  | cockShooterCancel | cockShooterStart => rfl

/-- A thread moves on by itself and leaves an entry for each of its requests. -/
theorem advance_enabled {parties : Parties} {thread : Nat} {angle : ℚ} {sequence later : Sequence}
    {emitted : Option Command} (running : parties.sequences[thread]? = some sequence)
    (stepped : sequence.step (parties.reading angle) = some (emitted, later)) :
    ∃ next, step parties (.advance thread angle) = some next ∧
      next.sequences = parties.sequences.set thread later ∧
      next.requests = parties.requests ++
        ((emitted.bind fun command => command.request (parties.reading angle)).map
          fun request => (thread, request)).toList := by
  simp only [step, running, stepped, Option.map_some]
  cases emitted with
  | none => exact ⟨_, rfl, rfl, (List.append_nil _).symm⟩
  | some command => exact ⟨_, rfl, perform_sequences _ _ _ _, perform_requests _ _ _ _⟩

theorem step_advance {parties next : Parties} {thread : Nat} {angle : ℚ}
    (taken : step parties (.advance thread angle) = some next) :
    ∃ sequence emitted later, parties.sequences[thread]? = some sequence ∧
      sequence.step (parties.reading angle) = some (emitted, later) ∧
      next.sequences = parties.sequences.set thread later ∧
      next.requests = parties.requests ++
        ((emitted.bind fun command => command.request (parties.reading angle)).map
          fun request => (thread, request)).toList := by
  cases running : parties.sequences[thread]? with
  | none => simp [step, running] at taken
  | some sequence =>
      cases stepped : sequence.step (parties.reading angle) with
      | none => simp [step, running, stepped] at taken
      | some pair =>
          obtain ⟨after, same, moved, requested⟩ := advance_enabled running stepped
          rw [taken, Option.some.injEq] at same
          subst same
          exact ⟨sequence, pair.1, pair.2, rfl, stepped, moved, requested⟩

theorem issuedBy_append {parties next : Parties} {thread : Nat} {request : Option AutoRequest}
    {other : Nat} (appended : next.requests = parties.requests ++
      (request.map fun issued => (other, issued)).toList) :
    next.issuedBy thread = parties.issuedBy thread ++
      if other = thread then (request.map fun issued => (other, issued)).toList else [] := by
  unfold Parties.issuedBy
  rw [appended, List.filter_append]
  cases request with
  | none => simp
  | some issued => by_cases same : other = thread <;> simp [same]

/-- Every thread is working towards its last request, or is past it. -/
def Inv (parties : Parties) : Prop :=
  ∀ sequence ∈ parties.sequences, sequence.Working ∨ sequence.Done

theorem callback_sequences (parties : Parties) (callback : Callback) (next : Parties)
    (taken : step parties (.callback callback) = some next) :
    next.sequences = parties.sequences ++
      (if callback = .autonomousInit ∧ parties.robot.autonomousHasBeenInit = false then
        [Sequence.start]
      else []) ∧ next.requests = parties.requests := by
  cases taken
  exact ⟨RobotTemplate.call_sequences _ _, rfl⟩

theorem Inv.step {parties next : Parties} {action : Action} (inv : Inv parties)
    (taken : step parties action = some next) : Inv next := by
  cases action with
  | callback callback =>
      have grown := (callback_sequences parties callback next taken).1
      intro sequence member
      rw [grown] at member
      rcases List.mem_append.mp member with old | new
      · exact inv sequence old
      · split at new
        · rw [List.mem_singleton.mp new]
          exact .inl start_working
        · cases new
  | elapse milliseconds =>
      cases taken
      exact inv
  | advance thread angle =>
      obtain ⟨sequence, emitted, later, running, stepped, moved, _⟩ := step_advance taken
      intro other member
      rw [moved] at member
      rcases List.mem_or_eq_of_mem_set member with old | new
      · exact inv other old
      · rw [new]
        rcases inv sequence (List.mem_of_getElem? running) with working | done
        · exact working.step stepped
        · exact .inr (done.step stepped).1

/-- A thread that is past its last request stays silent. -/
theorem silent_step {parties next : Parties} {action : Action} {thread : Nat}
    (silent : ∃ sequence, parties.sequences[thread]? = some sequence ∧ sequence.Done)
    (taken : step parties action = some next) :
    (∃ sequence, next.sequences[thread]? = some sequence ∧ sequence.Done) ∧
      next.issuedBy thread = parties.issuedBy thread := by
  obtain ⟨sequence, running, done⟩ := silent
  cases action with
  | callback callback =>
      obtain ⟨grown, same⟩ := callback_sequences parties callback next taken
      refine ⟨⟨sequence, ?_, done⟩, ?_⟩
      · rw [grown]
        exact List.getElem?_append_left (List.getElem?_eq_some_iff.mp running).1 ▸ running
      · unfold Parties.issuedBy
        rw [same]
  | elapse milliseconds =>
      cases taken
      exact ⟨⟨sequence, running, done⟩, rfl⟩
  | advance other angle =>
      obtain ⟨moving, emitted, later, same, stepped, moved, requested⟩ := step_advance taken
      by_cases here : other = thread
      · subst here
        rw [running, Option.some.injEq] at same
        subst same
        obtain ⟨stays, quiet⟩ := done.step stepped
        refine ⟨⟨later, ?_, stays⟩, ?_⟩
        · rw [moved]
          exact List.getElem?_set_self (List.getElem?_eq_some_iff.mp running).1
        · have nothing : (emitted.bind fun command =>
              command.request (parties.reading angle)) = none := by
            cases emitted with
            | none => rfl
            | some command =>
                have quiet := quiet command rfl
                rw [← request_isSome (parties.reading angle)] at quiet
                exact Option.not_isSome_iff_eq_none.mp (by simp [quiet])
          rw [issuedBy_append requested, nothing]
          simp
      · refine ⟨⟨sequence, ?_, done⟩, ?_⟩
        · rw [moved, List.getElem?_set_ne here]
          exact running
        · rw [issuedBy_append requested]
          simp [here]

theorem silent_run {parties last : Parties} {actions : List Action} {thread : Nat}
    (silent : ∃ sequence, parties.sequences[thread]? = some sequence ∧ sequence.Done)
    (taken : run step parties actions = some last) :
    last.issuedBy thread = parties.issuedBy thread := by
  have kept := run_invariant
    (fun state => (∃ sequence, state.sequences[thread]? = some sequence ∧ sequence.Done) ∧
      state.issuedBy thread = parties.issuedBy thread)
    (fun state action next before first =>
      have after := silent_step before.1 first
      ⟨after.1, after.2.trans before.2⟩) ⟨silent, rfl⟩ taken
  exact kept.2

def isCallback : Action → Bool
  | .callback _ => true
  | _ => false

/-- Left to itself, the thread goes on to ask for something. -/
def GoesOn (parties : Parties) (thread : Nat) : Prop :=
  CanReach step (fun _ action => isCallback action = false)
    (fun state => state.issuedBy thread ≠ parties.issuedBy thread) parties

/-- Enough time passes, and the thread gets past the next piece of its code. -/
theorem gets_past {parties : Parties} {thread : Nat} {sequence : Sequence}
    {instr : Instr Command Test} {rest : List (Instr Command Test)}
    (running : parties.sequences[thread]? = some sequence) (ahead : sequence.code = instr :: rest) :
    ∃ milliseconds middle next later request, step parties (.elapse milliseconds) = some middle ∧
      step middle (.advance thread 0) = some next ∧
      next.sequences[thread]? = some later ∧ later.code = rest ∧
      next.issuedBy thread = parties.issuedBy thread ++
        (Option.map (fun issued : AutoRequest => (thread, issued)) request).toList ∧
      ∀ command, instr = .run command → command.requests = true → request.isSome = true := by
  obtain ⟨milliseconds, passes⟩ := passes_eventually sequence parties.localTime instr
  have inside : thread < parties.sequences.length := (List.getElem?_eq_some_iff.mp running).1
  let middle : Parties := { parties with localTime := parties.localTime + milliseconds }
  have passing : ∃ emitted, advance (sequence.holds (middle.reading 0)) (instr :: rest) =
      some (emitted, rest) := advance_passing passes
  obtain ⟨emitted, advanced⟩ := passing
  have stepping : ∃ later, sequence.step (middle.reading 0) = some (emitted, later) ∧
      later.code = rest := step_of_advance (ahead ▸ advanced)
  obtain ⟨later, stepped, past⟩ := stepping
  have waiting : middle.sequences[thread]? = some sequence := running
  obtain ⟨next, taken, moved, requested⟩ := advance_enabled waiting stepped
  refine ⟨milliseconds, middle, next, later, _, rfl, taken, ?_, past,
    (issuedBy_append requested).trans (by rw [if_pos rfl]; rfl), ?_⟩
  · rw [moved]
    exact List.getElem?_set_self inside
  · intro command here asks
    subst here
    cases advanced
    exact (request_isSome _ command).trans asks

theorem goesOn_of_code {front : List (Instr Command Test)} {parties : Parties} {thread : Nat}
    {sequence : Sequence} {issued : List (Nat × AutoRequest)}
    (running : parties.sequences[thread]? = some sequence)
    (ahead : sequence.code = front ++ finale) (before : parties.issuedBy thread = issued) :
    CanReach step (fun _ action => isCallback action = false)
      (fun state => state.issuedBy thread ≠ issued) parties := by
  induction front generalizing parties sequence with
  | nil =>
      obtain ⟨_, middle, next, later, request, waited, taken, _, _, issues, asks⟩ :=
        gets_past running ahead
      refine CanReach.cons rfl waited (CanReach.cons rfl taken (.here ?_))
      obtain ⟨issue, same⟩ := Option.isSome_iff_exists.mp (asks _ rfl rfl)
      rw [issues, before, same]
      simp
  | cons instr rest ih =>
      obtain ⟨_, middle, next, later, request, waited, taken, runs, past, issues, _⟩ :=
        gets_past running ahead
      refine CanReach.cons rfl waited (CanReach.cons rfl taken ?_)
      cases request with
      | some issue =>
          apply CanReach.here
          rw [issues, before]
          simp
      | none =>
          apply ih runs past
          rw [issues, before]
          exact List.append_nil _

/-- The thread has requests left to issue. -/
def Issuing (parties : Parties) (thread : Nat) : Prop :=
  ∃ sequence, parties.sequences[thread]? = some sequence ∧ ¬sequence.Done

/-- No sequence is started unless all earlier ones are past their last request. -/
def StartsAlone (parties : Parties) : Action → Prop
  | .callback .autonomousInit => parties.robot.autonomousHasBeenInit = false →
      ∀ thread, ¬Issuing parties thread
  | _ => True

/-- At most one thread has requests left to issue. -/
def Single (parties : Parties) : Prop :=
  ∀ first second, Issuing parties first → Issuing parties second → first = second

/-- Whoever is issuing after a step was before it, unless the step started it. -/
theorem issuing_step {parties next : Parties} {action : Action} {thread : Nat}
    (issuing : Issuing next thread) (taken : step parties action = some next) :
    Issuing parties thread ∨ thread = parties.sequences.length ∧
      action = .callback .autonomousInit ∧ parties.robot.autonomousHasBeenInit = false := by
  obtain ⟨sequence, running, working⟩ := issuing
  cases action with
  | callback callback =>
      rw [(callback_sequences parties callback next taken).1] at running
      by_cases old : thread < parties.sequences.length
      · rw [List.getElem?_append_left old] at running
        exact .inl ⟨sequence, running, working⟩
      · have inside := (List.getElem?_eq_some_iff.mp running).1
        split at inside
        · rename_i starts
          rw [List.length_append, List.length_singleton] at inside
          refine .inr ⟨?_, congrArg Action.callback starts.1, starts.2⟩
          omega
        · rw [List.append_nil] at inside
          exact absurd inside old
  | elapse milliseconds =>
      cases taken
      exact .inl ⟨sequence, running, working⟩
  | advance other angle =>
      obtain ⟨before, emitted, later, runs, stepped, moved, _⟩ := step_advance taken
      rw [moved] at running
      left
      by_cases here : other = thread
      · subst here
        rw [List.getElem?_set_self (List.getElem?_eq_some_iff.mp runs).1,
          Option.some.injEq] at running
        refine ⟨before, runs, fun done => working ?_⟩
        rw [← running]
        exact (done.step stepped).1
      · rw [List.getElem?_set_ne here] at running
        exact ⟨sequence, running, working⟩

theorem Single.step {parties next : Parties} {action : Action} (single : Single parties)
    (alone : StartsAlone parties action) (taken : step parties action = some next) :
    Single next := by
  intro first second here there
  rcases issuing_step here taken with old | ⟨newest, starts, fresh⟩
  · rcases issuing_step there taken with older | ⟨_, starts, fresh⟩
    · exact single first second old older
    · subst starts
      exact absurd old (alone fresh first)
  · rcases issuing_step there taken with old | ⟨newer, _, _⟩
    · subst starts
      exact absurd old (alone fresh second)
    · exact newest.trans newer.symm

/-- What becomes of the sequences in any run: no callback touches one that has
been started, each goes on exactly until its last request, and they do not
overlap as long as none is started before that of all others. -/
theorem sequences_go_on (alliance : Alliance) (actions : List Action) (last : Parties)
    (taken : run step (initial alliance) actions = some last) :
    (∀ callback next, step last (.callback callback) = some next →
      last.sequences <+: next.sequences ∧ next.requests = last.requests) ∧
    (∀ thread < last.sequences.length,
      (¬Issuing last thread → ∀ later finish, run step last later = some finish →
        finish.issuedBy thread = last.issuedBy thread) ∧
      (Issuing last thread → GoesOn last thread)) ∧
    (Along step StartsAlone (initial alliance) actions → Single last) := by
  refine ⟨?_, ?_, ?_⟩
  · intro callback next called
    obtain ⟨grown, same⟩ := callback_sequences last callback next called
    rw [grown]
    exact ⟨List.prefix_append _ _, same⟩
  · intro thread inside
    have running : last.sequences[thread]? = some last.sequences[thread] :=
      List.getElem?_eq_getElem inside
    constructor
    · intro silent later finish ran
      have done : last.sequences[thread].Done := by
        by_cases done : last.sequences[thread].Done
        · exact done
        · exact absurd ⟨_, running, done⟩ silent
      exact silent_run ⟨_, running, done⟩ ran
    · intro issuing
      obtain ⟨sequence, runs, working⟩ := issuing
      have inv : Inv last :=
        run_invariant Inv (fun _ _ _ before first => before.step first)
          (fun _ member => absurd member List.not_mem_nil) taken
      obtain ⟨front, ahead⟩ := (inv sequence (List.mem_of_getElem? runs)).resolve_right working
      exact goesOn_of_code runs ahead rfl
  · intro alone
    have none : ∀ thread, ¬Issuing (initial alliance) thread := by
      intro thread issuing
      obtain ⟨sequence, running, _⟩ := issuing
      cases running
    have start : Single (initial alliance) := fun first _ here _ => absurd here (none first)
    exact run_invariant_along Single
      (fun _ _ _ before permitted first => before.step permitted first) start alone taken

/-- A sequence is started, and TeleopInit is called at once. -/
def cutShort : List Action := [.callback .autonomousInit, .callback .teleopInit]

theorem sequences_go_on_cutShort :
    ∃ last, run step (initial .red) cutShort = some last ∧ GoesOn last 0 ∧ Single last := by
  have alone : Along step StartsAlone (initial .red) cutShort := by
    refine ⟨?_, fun next _ => ⟨trivial, fun _ _ => trivial⟩⟩
    intro _ thread issuing
    obtain ⟨sequence, running, _⟩ := issuing
    cases running
  have issuing : Issuing ⟨(RobotTemplate.initial .red).autonomousInit.teleopInit, 0, []⟩ 0 :=
    ⟨Sequence.start, rfl, start_working.not_done⟩
  have whole := sequences_go_on .red cutShort _ rfl
  exact ⟨_, rfl, (whole.2.1 0 (by decide)).2 issuing, whole.2.2 alone⟩

/-- What would be wanted of the modes: when TeleopInit or DisabledInit returns,
the sequences started before it have asked for the last time. -/
def AutonomousEndsWithMode (alliance : Alliance) : Prop :=
  ∀ before callback middle after last, callback = .teleopInit ∨ callback = .disabledInit →
    run step (initial alliance) (before ++ [.callback callback]) = some middle →
    run step middle after = some last →
    ∀ thread < middle.sequences.length, last.issuedBy thread = middle.issuedBy thread

theorem not_autonomousEndsWithMode : ¬AutonomousEndsWithMode .red := by
  intro ends
  have silent := ends [.callback .autonomousInit] .teleopInit _
    [.advance 0 0, .advance 0 0] _ (.inl rfl) rfl rfl 0 (by decide)
  exact absurd silent (by decide)

end FrcRobot.AutonomousSequences
