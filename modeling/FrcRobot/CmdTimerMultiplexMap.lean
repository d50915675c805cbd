import FrcRobot.CmdTimerMultiplex

set_option autoImplicit false

/- What the map of a CmdTimerMultiplex holds when none of its calls is in progress. -/
namespace FrcRobot.CmdTimerMultiplex

open Interleaving CmdTimerWin32

/-- No call of startTimer or onTimerFire is in progress. -/
structure Quiet (parties : Parties) : Prop where
  starting : parties.starting = ∅
  handlers : parties.handlers = []

/-- The map holds the timers that were started and have not fired. -/
structure KeepsPending (parties : Parties) : Prop where
  pending : ∀ timer, timer ∈ parties.timerMap ↔
    timer ∈ parties.started ∧ parties.runs timer = 0
  once : ∀ timer, parties.runs timer ≤ 1
  drained : (∀ timer ∈ parties.started, parties.runs timer ≠ 0) →
    parties.timerMap = ∅ ∧ ∀ timer ∈ parties.started, parties.runs timer = 1

/-- The O/S calls back once for a timer, and startTimer has recorded the timer when
the callback comes to erase it. -/
def Recorded (parties : Parties) : Action → Prop
  | .expire idEvent => ∀ timer, parties.timers.timerHandler idEvent = some timer →
      parties.expiries timer = 0
  | .erase index _ _ => ∀ handler, parties.handlers[index]? = some handler →
      handler.timer ∉ parties.starting
  | _ => True

instance (parties : Parties) : (action : Action) → Decidable (Recorded parties action)
  | .expire idEvent =>
      match found : parties.timers.timerHandler idEvent with
      | none => .isTrue (by simp [Recorded, found])
      | some timer => decidable_of_iff (parties.expiries timer = 0) (by simp [Recorded, found])
  | .erase index _ _ =>
      match here : parties.handlers[index]? with
      | none => .isTrue (by simp [Recorded, here])
      | some handler => decidable_of_iff (handler.timer ∉ parties.starting)
          (by simp [Recorded, here])
  | .acquire | .release | .startTimer .. | .startTimerAt .. | .record .. | .invoke .. =>
      .isTrue trivial

/-- As long as that is so, a timer that has not expired is kept, and one that is
still kept is about to be erased. -/
structure Kept (parties : Parties) : Prop where
  once : ∀ timer, parties.expiries timer ≤ 1
  kept : ∀ timer ∈ parties.started, parties.expiries timer = 0 →
    timer ∈ parties.starting ∨ timer ∈ parties.timerMap
  firing : ∀ timer, timer ∈ parties.starting ∨ timer ∈ parties.timerMap →
    parties.expiries timer ≠ 0 → 0 < inProgress parties.handlers timer

theorem kept_initial : Kept Parties.initial :=
  ⟨fun _ => Nat.zero_le _, fun _ member => absurd member (Finset.notMem_empty _),
    fun _ _ expired => absurd rfl expired⟩

theorem Tracked.unexpired {parties : Parties} (tracked : Tracked parties) :
    parties.expiries parties.allocated = 0 := by
  by_contra expired
  exact Nat.lt_irrefl _ (tracked.allocated _ (tracked.expired _ expired))

theorem Kept.startTimer {platform : Platform} {parties next : Parties} {time : Int}
    {command : Option Nat} {answer : Nat} {killed : Bool} (kept : Kept parties)
    (tracked : Tracked parties)
    (taken : parties.startTimer platform time command answer killed = some next) : Kept next := by
  rcases startTimer_cases taken with ⟨_, timers, _, rfl⟩ | ⟨timers, _, rfl⟩
  · refine ⟨kept.once, ?_, ?_⟩
    · intro timer member idle
      rcases Finset.mem_insert.mp member with rfl | before
      · exact .inl (Finset.mem_insert_self ..)
      · exact (kept.kept timer before idle).imp_left Finset.mem_insert_of_mem
    · intro timer member expired
      apply kept.firing timer _ expired
      rcases member with starts | recorded
      · rcases Finset.mem_insert.mp starts with rfl | before
        · exact absurd tracked.unexpired expired
        · exact .inl before
      · exact .inr recorded
  · exact ⟨kept.once, kept.kept, kept.firing⟩

theorem Kept.expire {parties : Parties} {idEvent : Nat} (kept : Kept parties)
    (first : Recorded parties (.expire idEvent)) : Kept (parties.expire idEvent) := by
  unfold Parties.expire
  split
  · exact kept
  · rename_i timer found
    have unexpired := first timer found
    refine ⟨?_, ?_, ?_⟩
    · intro other
      show Function.update parties.expiries timer _ other ≤ 1
      by_cases same : other = timer
      · rw [same, Function.update_self, unexpired]
      · rw [Function.update_of_ne same]
        exact kept.once other
    · intro other member idle
      apply kept.kept other member
      by_cases same : other = timer
      · exact same ▸ unexpired
      · rwa [← Function.update_of_ne same _ parties.expiries]
    · intro other member expired
      simp only [inProgress, countP_append_one]
      by_cases same : other = timer
      · subst same
        simp only [decide_true, Bool.toNat_true]
        omega
      · change Function.update parties.expiries timer _ other ≠ 0 at expired
        rw [Function.update_of_ne same] at expired
        exact Nat.add_pos_left (kept.firing other member expired) _

theorem Kept.erased {parties : Parties} {index : Nat} {handler : Handler} (kept : Kept parties)
    (tracked : Tracked parties) (here : parties.handlers[index]? = some handler)
    (recorded : handler.timer ∉ parties.starting) : Kept (parties.erased index handler) := by
  have counted := inProgress_erase here
  have expired : parties.expiries handler.timer ≠ 0 := by
    have called := tracked.called handler.timer
    have one := counted handler.timer
    simp only [decide_true, Bool.toNat_true] at one
    omega
  refine ⟨kept.once, ?_, ?_⟩
  · intro timer member idle
    have apart : timer ≠ handler.timer := by
      rintro rfl
      exact expired idle
    exact (kept.kept timer member idle).imp_right (Finset.mem_erase_of_ne_of_mem apart)
  · intro timer member late
    have apart : timer ≠ handler.timer := by
      rintro rfl
      rcases member with starts | mapped
      · exact recorded starts
      · exact Finset.notMem_erase _ _ mapped
    have before := kept.firing timer (member.imp_right Finset.mem_of_mem_erase) late
    have same := counted timer
    simp only [Ne.symm apart, decide_false, Bool.toNat_false] at same
    show 0 < inProgress (parties.handlers.eraseIdx index) timer
    omega

theorem Kept.step {platform : Platform} {parties next : Parties} {action : Action}
    (kept : Kept parties) (tracked : Tracked parties) (recorded : Recorded parties action)
    (taken : step platform parties action = some next) : Kept next := by
  cases action with
  | acquire | release =>
      obtain ⟨_, ⟨⟩⟩ := Option.ite_none_right_eq_some.mp taken
      exact ⟨kept.once, kept.kept, kept.firing⟩
  | startTimer time command answer killed =>
      exact kept.startTimer tracked (Option.ite_none_right_eq_some.mp taken).2
  | startTimerAt time currentTime command answer killed =>
      exact kept.startTimer tracked (Option.ite_none_right_eq_some.mp taken).2
  | record timer =>
      obtain ⟨armed, ⟨⟩⟩ := Option.ite_none_right_eq_some.mp taken
      -- The timer goes from one set to the other, and the rest stay where they are.
      have moved : ∀ other, other ∈ parties.starting.erase timer ∨
          other ∈ insert timer parties.timerMap ↔
            other ∈ parties.starting ∨ other ∈ parties.timerMap := by
        intro other
        by_cases same : other = timer
        · simp [same, armed]
        · simp [same]
      refine ⟨kept.once, ?_, ?_⟩
      · exact fun other member idle => (moved other).mpr (kept.kept other member idle)
      · exact fun other member => kept.firing other ((moved other).mp member)
  | expire idEvent =>
      obtain ⟨_, ⟨⟩⟩ := Option.ite_none_right_eq_some.mp taken
      exact kept.expire recorded
  | invoke index =>
      obtain ⟨handler, here, invoked⟩ := Option.bind_eq_some_iff.mp taken
      obtain ⟨_, rfl⟩ := invoke_cases invoked
      refine ⟨kept.once, kept.kept, ?_⟩
      intro timer member expired
      have before := kept.firing timer member expired
      rwa [← inProgress_invoke here timer] at before
  | erase index outcome killed =>
      obtain ⟨handler, here, erases⟩ := Option.bind_eq_some_iff.mp taken
      have after := kept.erased tracked here (recorded handler here)
      rw [erase_frame erases]
      exact ⟨after.once, after.kept, after.firing⟩

/-- What a step against the rule leaves behind for good: a timer that has expired
twice, or one that is kept and has no callback left to erase it. -/
def Stuck (parties : Parties) (timer : Nat) : Prop :=
  2 ≤ parties.expiries timer ∨
    parties.expiries timer = 1 ∧ inProgress parties.handlers timer = 0 ∧
      (timer ∈ parties.starting ∨ timer ∈ parties.timerMap)

theorem Stuck.expire {parties : Parties} {idEvent timer : Nat} (stuck : Stuck parties timer) :
    Stuck (parties.expire idEvent) timer := by
  unfold Parties.expire
  split
  · exact stuck
  · rename_i expired found
    by_cases same : timer = expired
    · refine .inl ?_
      show 2 ≤ Function.update parties.expiries expired (parties.expiries expired + 1) timer
      rw [same, Function.update_self]
      rcases stuck with twice | ⟨once, _⟩ <;> subst same <;> omega
    · unfold Stuck at stuck ⊢
      simpa [inProgress, countP_append_one, Function.update_of_ne same, Ne.symm same] using stuck

theorem Stuck.erased {parties : Parties} {index timer : Nat} {handler : Handler}
    (stuck : Stuck parties timer) (here : parties.handlers[index]? = some handler) :
    Stuck (parties.erased index handler) timer := by
  rcases stuck with twice | ⟨once, none_left, member⟩
  · exact .inl twice
  · have counted := inProgress_erase here timer
    have apart : timer ≠ handler.timer := by
      rintro rfl
      simp only [decide_true, Bool.toNat_true] at counted
      omega
    refine .inr ⟨once, ?_, member.imp_right (Finset.mem_erase_of_ne_of_mem apart)⟩
    show inProgress (parties.handlers.eraseIdx index) timer = 0
    omega

theorem Stuck.startTimer {platform : Platform} {parties next : Parties} {time : Int}
    {command : Option Nat} {answer timer : Nat} {killed : Bool} (stuck : Stuck parties timer)
    (taken : parties.startTimer platform time command answer killed = some next) :
    Stuck next timer := by
  rcases startTimer_cases taken with ⟨_, timers, _, rfl⟩ | ⟨timers, _, rfl⟩
  · refine stuck.imp_right fun kept => ⟨kept.1, kept.2.1, ?_⟩
    exact kept.2.2.imp_left Finset.mem_insert_of_mem
  · exact stuck

theorem Stuck.step {platform : Platform} {parties next : Parties} {action : Action} {timer : Nat}
    (stuck : Stuck parties timer) (taken : step platform parties action = some next) :
    Stuck next timer := by
  cases action with
  | acquire | release =>
      obtain ⟨_, ⟨⟩⟩ := Option.ite_none_right_eq_some.mp taken
      exact stuck
  | startTimer time command answer killed =>
      exact stuck.startTimer (Option.ite_none_right_eq_some.mp taken).2
  | startTimerAt time currentTime command answer killed =>
      exact stuck.startTimer (Option.ite_none_right_eq_some.mp taken).2
  | record recorded =>
      obtain ⟨armed, ⟨⟩⟩ := Option.ite_none_right_eq_some.mp taken
      refine stuck.imp_right fun kept => ⟨kept.1, kept.2.1, ?_⟩
      rcases kept.2.2 with starts | mapped
      · by_cases same : timer = recorded
        · exact .inr (same ▸ Finset.mem_insert_self ..)
        · exact .inl (Finset.mem_erase_of_ne_of_mem same starts)
      · exact .inr (Finset.mem_insert_of_mem mapped)
  | expire idEvent =>
      obtain ⟨_, ⟨⟩⟩ := Option.ite_none_right_eq_some.mp taken
      exact stuck.expire
  | invoke index =>
      obtain ⟨handler, here, invoked⟩ := Option.bind_eq_some_iff.mp taken
      obtain ⟨_, rfl⟩ := invoke_cases invoked
      refine stuck.imp_right fun kept => ⟨kept.1, ?_, kept.2.2⟩
      exact (inProgress_invoke here timer).trans kept.2.1
  | erase index outcome killed =>
      obtain ⟨handler, here, erases⟩ := Option.bind_eq_some_iff.mp taken
      have after := stuck.erased here
      rw [erase_frame erases]
      exact after

theorem stuck_of_not_recorded {platform : Platform} {parties next : Parties} {action : Action}
    (tracked : Tracked parties) (against : ¬Recorded parties action)
    (taken : step platform parties action = some next) : ∃ timer, Stuck next timer := by
  cases action with
  | expire idEvent =>
      obtain ⟨_, ⟨⟩⟩ := Option.ite_none_right_eq_some.mp taken
      simp only [Recorded, Classical.not_forall] at against
      obtain ⟨timer, found, again⟩ := against
      refine ⟨timer, .inl ?_⟩
      simp only [Parties.expire, found, Function.update_self]
      omega
  | erase index outcome killed =>
      obtain ⟨handler, here, erases⟩ := Option.bind_eq_some_iff.mp taken
      simp only [Recorded, here, Option.some.injEq, forall_eq', not_not] at against
      refine ⟨handler.timer, ?_⟩
      rw [erase_frame erases]
      have called := tracked.called handler.timer
      have counted := inProgress_erase here handler.timer
      simp only [decide_true, Bool.toNat_true] at counted
      by_cases twice : 2 ≤ parties.expiries handler.timer
      · exact .inl twice
      · refine .inr ⟨?_, ?_, .inl against⟩
        · show parties.expiries handler.timer = 1
          omega
        · show inProgress (parties.handlers.eraseIdx index) handler.timer = 0
          omega
  | acquire | release | startTimer | startTimerAt | record | invoke => exact absurd trivial against

theorem along_recorded_of_not_stuck {platform : Platform} {parties last : Parties}
    {actions : List Action} (tracked : Tracked parties)
    (taken : run (step platform) parties actions = some last)
    (free : ∀ timer, ¬Stuck last timer) : Along (step platform) Recorded parties actions := by
  induction actions generalizing parties with
  | nil => trivial
  | cons action rest ih =>
      obtain ⟨next, first, later⟩ := Option.bind_eq_some_iff.mp taken
      constructor
      · by_contra against
        obtain ⟨timer, stuck⟩ := stuck_of_not_recorded tracked against first
        exact free timer (run_invariant (Stuck · timer) (fun _ _ _ before => before.step) stuck later)
      · intro other same
        obtain rfl := Option.some.inj (first.symm.trans same)
        exact ih (tracked.step first) later

theorem Quiet.runs {parties : Parties} (quiet : Quiet parties) (tracked : Tracked parties)
    (timer : Nat) : parties.runs timer = parties.expiries timer := by
  have counted := tracked.ran timer
  simpa [quiet.handlers, waiting] using counted

theorem Kept.keepsPending {parties : Parties} (kept : Kept parties) (tracked : Tracked parties)
    (quiet : Quiet parties) : KeepsPending parties := by
  have nowhere : ∀ timer, timer ∉ parties.starting := by
    intro timer
    simp [quiet.starting]
  have pending : ∀ timer, timer ∈ parties.timerMap ↔
      timer ∈ parties.started ∧ parties.runs timer = 0 := by
    intro timer
    rw [quiet.runs tracked timer]
    constructor
    · intro member
      refine ⟨tracked.recorded timer member, ?_⟩
      by_contra expired
      have called := kept.firing timer (.inr member) expired
      simp [quiet.handlers, inProgress] at called
    · rintro ⟨member, idle⟩
      exact (kept.kept timer member idle).resolve_left (nowhere timer)
  refine ⟨pending, fun timer => (quiet.runs tracked timer).le.trans (kept.once timer), ?_⟩
  intro fired
  constructor
  · refine Finset.eq_empty_of_forall_notMem fun timer member => ?_
    obtain ⟨started, idle⟩ := (pending timer).mp member
    exact fired timer started idle
  · intro timer member
    have some_run := fired timer member
    have once := (quiet.runs tracked timer).le.trans (kept.once timer)
    omega

theorem KeepsPending.not_stuck {parties : Parties} (keeps : KeepsPending parties)
    (tracked : Tracked parties) (quiet : Quiet parties) (timer : Nat) : ¬Stuck parties timer := by
  have runs := quiet.runs tracked timer
  rintro (twice | ⟨once, _, starts | mapped⟩)
  · have most := keeps.once timer
    omega
  · simp [quiet.starting] at starts
  · have none_run := ((keeps.pending timer).mp mapped).2
    omega

/-- When no call is in progress the map holds the timers that were started and have
not fired, if and only if the O/S has called back for none of them twice and every
one had been recorded when its callback came to erase it. -/
theorem keeps_pending_iff_recorded (platform : Platform) (actions : List Action) (last : Parties)
    (taken : run (step platform) Parties.initial actions = some last) (quiet : Quiet last) :
    KeepsPending last ↔ Along (step platform) Recorded Parties.initial actions := by
  have tracked : Tracked last :=
    run_invariant Tracked (fun _ _ _ before => before.step) tracked_initial taken
  constructor
  · intro keeps
    exact along_recorded_of_not_stuck tracked_initial taken (keeps.not_stuck tracked quiet)
  · intro recorded
    have kept : Tracked last ∧ Kept last :=
      run_invariant_along (fun parties => Tracked parties ∧ Kept parties)
        (fun _ _ _ before permitted first => ⟨before.1.step first,
          before.2.step before.1 permitted first⟩)
        ⟨tracked_initial, kept_initial⟩ recorded taken
    exact kept.2.keepsPending tracked quiet

/-- Two timers, the second of which expires first. -/
theorem keeps_pending_iff_recorded_two :
    ∃ last, run (step .unitTests) Parties.initial
      [.startTimer 2000 (some 0) 1 false, .startTimer 10 (some 1) 2 false, .expire 2, .record 1,
        .record 0, .invoke 0, .erase 0 .returns false] = some last ∧
      last.timerMap = {0} ∧ KeepsPending last :=
  ⟨_, rfl, by decide +kernel, (keeps_pending_iff_recorded .unitTests
    [.startTimer 2000 (some 0) 1 false, .startTimer 10 (some 1) 2 false, .expire 2, .record 1,
      .record 0, .invoke 0, .erase 0 .returns false] _ rfl ⟨by decide +kernel, rfl⟩).mpr
        (by decide +kernel)⟩

/-- The only timer fires before it is recorded, and stays in the map. -/
theorem not_keepsPending_early :
    ∃ last, run (step .unitTests) Parties.initial
      [.startTimer 10 (some 0) 1 false, .expire 1, .invoke 0, .erase 0 .returns false,
        .record 0] = some last ∧ Quiet last ∧ last.timerMap = {0} ∧ last.runs 0 = 1 ∧
      ¬KeepsPending last := by
  refine ⟨_, rfl, ⟨by decide +kernel, rfl⟩, by decide +kernel, by decide +kernel, ?_⟩
  intro keeps
  have empty := (keeps.pending 0).mp (by decide +kernel)
  exact absurd empty.2 (by decide +kernel)

end FrcRobot.CmdTimerMultiplex
