import FrcRobot.CmdTimerDestroyed
import FrcRobot.CmdTimerOneShot

set_option autoImplicit false

/- A timer whose only wrapper belongs to one object, among all the others. -/
namespace FrcRobot.CmdTimerWrappers

open Interleaving CmdTimerWin32

structure Owner where
  wrapper : Nat
  timer : Nat

namespace Owner

/-- The steps that take the owner to do something, or its timer to expire or its command
to run. -/
def Does (owner : Owner) (parties : Parties) : Action → Prop
  | .copy wrapper | .destroy wrapper _ | .setCmd wrapper _ | .startRelative wrapper _ _
  | .startAbsolute wrapper _ _ _ | .cancel wrapper _ => wrapper = owner.wrapper
  | .assign target source _ => target = owner.wrapper ∨ source = owner.wrapper
  | .invoke index | .finish index _ _ =>
      parties.handlers[index]?.map Handler.timer = some owner.timer
  | .expire idEvent => parties.timers.timerHandler idEvent = some owner.timer
  | .construct _ | .constructStarted _ _ _ => False

instance (owner : Owner) (parties : Parties) (action : Action) :
    Decidable (owner.Does parties action) := by
  unfold Does
  split <;> infer_instance

/-- Nobody else has a wrapper of the timer, which has its command. -/
structure Keeps (owner : Owner) (parties : Parties) : Prop where
  points : parties.pImpl owner.wrapper = some owner.timer
  sole : ∀ wrapper, parties.pImpl wrapper = some owner.timer → wrapper = owner.wrapper
  command : (parties.cmdToInvoke owner.timer).isSome = true

/-- Only timers that have been allocated are pointed to, run or are called back for. -/
structure Allocated (parties : Parties) : Prop where
  pointed : ∀ wrapper timer, parties.pImpl wrapper = some timer → timer < parties.allocated
  running : ∀ timer, parties.timers.timerID timer ≠ 0 → timer < parties.allocated
  called : ∀ handler ∈ parties.handlers, handler.timer < parties.allocated

/-- What the timer comes to for its owner: whether it is running, and how often its
command is still to be invoked. -/
def running (owner : Owner) (parties : Parties) : Bool :=
  parties.timers.timerIsRunning owner.timer

def begun (owner : Owner) (parties : Parties) : Nat := waiting parties.handlers owner.timer

/-- The next wrapper, with the next timer. -/
def next (parties : Parties) : Owner := ⟨parties.wrappers.length, parties.allocated⟩

section Wrappers

variable {owner : Owner} {parties : Parties} {timer : Nat}

theorem pImpl_append_iff {wrapper pointed : Nat} :
    ({ parties with wrappers := parties.wrappers ++ [some timer] } : Parties).pImpl wrapper =
        some pointed ↔
      parties.pImpl wrapper = some pointed ∨
        wrapper = parties.wrappers.length ∧ timer = pointed := by
  unfold Parties.pImpl
  rw [List.getElem?_append]
  split
  · rename_i within
    exact ⟨.inl, fun either => either.resolve_right fun both => absurd both.1 within.ne⟩
  · rename_i beyond
    have out : parties.wrappers[wrapper]? = none := List.getElem?_eq_none (Nat.le_of_not_lt beyond)
    rw [List.getElem?_singleton, out]
    by_cases here : wrapper = parties.wrappers.length
    · simp [here]
    · have later : wrapper - parties.wrappers.length ≠ 0 := by omega
      simp [here, later]

theorem pImpl_set_self {wrapper old pointed : Nat} {new : Option Nat}
    (points : parties.pImpl wrapper = some old) :
    ({ parties with wrappers := parties.wrappers.set wrapper new } : Parties).pImpl wrapper =
        some pointed ↔ new = some pointed := by
  have within : wrapper < parties.wrappers.length :=
    (List.getElem?_eq_some_iff.mp (Option.join_eq_some_iff.mp points)).1
  unfold Parties.pImpl
  rw [List.getElem?_set_self within, Option.join_some]

theorem pImpl_set_ne {wrapper other : Nat} (new : Option Nat) (apart : wrapper ≠ other) :
    ({ parties with wrappers := parties.wrappers.set wrapper new } : Parties).pImpl other =
      parties.pImpl other := by
  unfold Parties.pImpl
  rw [List.getElem?_set_ne apart]

/-- The owner's timer is no other wrapper's. -/
theorem Keeps.apart (keeps : owner.Keeps parties) {wrapper : Nat}
    (points : parties.pImpl wrapper = some timer) (other : wrapper ≠ owner.wrapper) :
    timer ≠ owner.timer := by
  rintro rfl
  exact other (keeps.sole wrapper points)

/-- One more wrapper, of another timer. -/
theorem Keeps.append (keeps : owner.Keeps parties) (apart : timer ≠ owner.timer)
    (allocated : Nat) {cmdToInvoke : Nat → Option Nat}
    (command : cmdToInvoke owner.timer = parties.cmdToInvoke owner.timer) :
    owner.Keeps { parties with
      cmdToInvoke := cmdToInvoke
      allocated := allocated
      wrappers := parties.wrappers ++ [some timer] } := by
  refine ⟨pImpl_append_iff.mpr (.inl keeps.points), ?_, ?_⟩
  · intro wrapper points
    rcases pImpl_append_iff.mp points with old | ⟨_, same⟩
    · exact keeps.sole wrapper old
    · exact absurd same apart
  · show (cmdToInvoke owner.timer).isSome = true
    rw [command]
    exact keeps.command

/-- Another wrapper is overwritten. -/
theorem Keeps.set (keeps : owner.Keeps parties) {wrapper old : Nat}
    (points : parties.pImpl wrapper = some old) (other : wrapper ≠ owner.wrapper)
    {new : Option Nat} (apart : new ≠ some owner.timer) :
    owner.Keeps { parties with wrappers := parties.wrappers.set wrapper new } := by
  refine ⟨(pImpl_set_ne new other).trans keeps.points, ?_, keeps.command⟩
  intro index there
  by_cases here : wrapper = index
  · subst here
    exact absurd ((pImpl_set_self points).mp there) apart
  · exact keeps.sole index (pImpl_set_ne new here ▸ there)

theorem Allocated.append (allocated : Allocated parties) {size : Nat}
    (more : parties.allocated ≤ size) (new : timer < size) (cmdToInvoke : Nat → Option Nat) :
    Allocated { parties with
      cmdToInvoke := cmdToInvoke
      allocated := size
      wrappers := parties.wrappers ++ [some timer] } := by
  refine ⟨?_, ?_, ?_⟩
  · intro wrapper pointed points
    rcases pImpl_append_iff.mp points with old | ⟨_, rfl⟩
    · exact (allocated.pointed wrapper pointed old).trans_le more
    · exact new
  · exact fun other running => (allocated.running other running).trans_le more
  · exact fun handler member => (allocated.called handler member).trans_le more

theorem Allocated.set (allocated : Allocated parties) {wrapper old : Nat}
    (points : parties.pImpl wrapper = some old) {new : Option Nat}
    (known : ∀ pointed, new = some pointed → pointed < parties.allocated) :
    Allocated { parties with wrappers := parties.wrappers.set wrapper new } := by
  refine ⟨?_, allocated.running, allocated.called⟩
  intro index pointed there
  by_cases here : wrapper = index
  · subst here
    exact known pointed ((pImpl_set_self points).mp there)
  · exact allocated.pointed index pointed (pImpl_set_ne new here ▸ there)

end Wrappers

section Steps

variable {platform : Platform} {owner : Owner} {parties after : Parties}

/-- What has changed can be nothing to the owner. -/
structure Same (owner : Owner) (parties after : Parties) : Prop where
  keeps : owner.Keeps after
  running : owner.running after = owner.running parties
  begun : owner.begun after = owner.begun parties

/-- The owner's wrapper keeps its timer from being destroyed. -/
theorem Keeps.release (keeps : owner.Keeps parties) {timer : Nat} {killed : Bool}
    (taken : parties.release platform timer killed = some after) : owner.Same parties after := by
  rcases release_cases taken with ⟨_, rfl⟩ | ⟨last, timers, cancelled, rfl⟩
  · exact ⟨keeps, rfl, rfl⟩
  · have apart : owner.timer ≠ timer := by
      rintro rfl
      exact last (.inl (mem_wrappers keeps.points))
    refine ⟨⟨keeps.points, keeps.sole, keeps.command⟩, ?_, rfl⟩
    unfold running timerIsRunning
    rw [cancel_other cancelled apart]

theorem Keeps.startRelative_other (keeps : owner.Keeps parties) {timer answer : Nat}
    {invocationDelay : Int} (apart : owner.timer ≠ timer)
    (taken : parties.startRelative platform timer invocationDelay answer = some after) :
    owner.Same parties after := by
  rcases startRelative_cases taken with rfl | ⟨_, timers, set, rfl⟩
  · exact ⟨keeps, rfl, rfl⟩
  · refine ⟨⟨keeps.points, keeps.sole, keeps.command⟩, ?_, rfl⟩
    unfold running timerIsRunning
    rw [timerSetTime_other set apart]

/-- A call that returns has invoked the command. -/
theorem Keeps.finish (keeps : owner.Keeps parties) {index : Nat} {outcome : Outcome}
    {killed : Bool} (taken : step platform parties (.finish index outcome killed) = some after) :
    owner.Same parties after := by
  obtain ⟨handler, here, finished⟩ := Option.bind_eq_some_iff.mp taken
  obtain ⟨done, released⟩ := finish_cases finished
  have kept : owner.Keeps { parties with handlers := parties.handlers.eraseIdx index } :=
    ⟨keeps.points, keeps.sole, keeps.command⟩
  have same := kept.release released
  refine ⟨same.keeps, same.running, same.begun.trans ?_⟩
  have count := countP_eraseIdx here fun handler => handler.timer = owner.timer && !handler.invoked
  rw [done, Bool.not_true, Bool.and_false, Bool.toNat_false, Nat.add_zero] at count
  exact count

/-- An expiry of the owner's timer, which must be running. -/
theorem Keeps.expire (keeps : owner.Keeps parties) (tables : Inv parties) {idEvent : Nat}
    (found : parties.timers.timerHandler idEvent = some owner.timer) :
    owner.running parties = true ∧ owner.Keeps (parties.expire idEvent) ∧
      owner.running (parties.expire idEvent) = true ∧
      owner.begun (parties.expire idEvent) = owner.begun parties + 1 := by
  have its := tables.consistent.owner idEvent owner.timer found
  have running : owner.running parties = true := by
    simp only [running, timerIsRunning, its.1, ne_eq, its.2, not_false_eq_true, decide_true]
  simp only [Parties.expire, found]
  refine ⟨running, ⟨keeps.points, keeps.sole, keeps.command⟩, running, ?_⟩
  rw [begun, waiting_append]
  simp [begun]

theorem Keeps.expire_other (keeps : owner.Keeps parties) {idEvent : Nat}
    (missed : parties.timers.timerHandler idEvent ≠ some owner.timer) :
    owner.Same parties (parties.expire idEvent) := by
  unfold Parties.expire
  split
  · exact ⟨keeps, rfl, rfl⟩
  · rename_i timer found
    have other : timer ≠ owner.timer := fun same => missed (same ▸ found)
    refine ⟨⟨keeps.points, keeps.sole, keeps.command⟩, rfl, ?_⟩
    rw [begun, waiting_append]
    simp [begun, other]

/-- What the others do is nothing to the owner. -/
theorem Keeps.others (keeps : owner.Keeps parties) (allocated : Allocated parties)
    {action : Action} (others : ¬owner.Does parties action)
    (taken : step platform parties action = some after) : owner.Same parties after := by
  cases action with
  | construct command =>
      cases taken
      have last := allocated.pointed _ _ keeps.points
      refine ⟨keeps.append last.ne' _ ?_, rfl, rfl⟩
      exact Function.update_of_ne last.ne _ _
  | constructStarted command timeRelative answer =>
      rcases constructStarted_cases taken with rfl | ⟨_, timers, created, rfl⟩
      · exact ⟨keeps, rfl, rfl⟩
      · refine ⟨⟨keeps.points, keeps.sole, keeps.command⟩, ?_, rfl⟩
        unfold running timerIsRunning
        rw [timerID_createTimer created]
  | copy source =>
      obtain ⟨timer, points, rfl⟩ := Option.map_eq_some_iff.mp taken
      exact ⟨keeps.append (keeps.apart points others) _ rfl, rfl, rfl⟩
  | assign target source killed =>
      obtain ⟨old, points, rest⟩ := Option.bind_eq_some_iff.mp taken
      obtain ⟨new, pointsNew, released⟩ := Option.bind_eq_some_iff.mp rest
      rw [Does, not_or] at others
      have kept := keeps.set points others.1 fun same =>
        keeps.apart pointsNew others.2 (Option.some.inj same)
      have same := kept.release released
      exact ⟨same.keeps, same.running, same.begun⟩
  | destroy wrapper killed =>
      obtain ⟨old, points, released⟩ := Option.bind_eq_some_iff.mp taken
      have kept := keeps.set points others (Option.some_ne_none _).symm
      have same := kept.release released
      exact ⟨same.keeps, same.running, same.begun⟩
  | setCmd wrapper cmdToInvoke =>
      obtain ⟨timer, points, rfl⟩ := Option.map_eq_some_iff.mp taken
      refine ⟨⟨keeps.points, keeps.sole, ?_⟩, rfl, rfl⟩
      show (Function.update parties.cmdToInvoke timer cmdToInvoke owner.timer).isSome = true
      rw [Function.update_of_ne (keeps.apart points others).symm]
      exact keeps.command
  | startRelative wrapper invocationDelay answer =>
      obtain ⟨timer, points, started⟩ := Option.bind_eq_some_iff.mp taken
      exact keeps.startRelative_other (keeps.apart points others).symm started
  | startAbsolute wrapper invocationTime currentTime answer =>
      obtain ⟨timer, points, started⟩ := Option.bind_eq_some_iff.mp taken
      exact keeps.startRelative_other (keeps.apart points others).symm started
  | cancel wrapper killed =>
      obtain ⟨timer, points, cancels⟩ := Option.bind_eq_some_iff.mp taken
      obtain ⟨timers, cancelled, rfl⟩ := cancel_cases cancels
      refine ⟨⟨keeps.points, keeps.sole, keeps.command⟩, ?_, rfl⟩
      unfold running timerIsRunning
      rw [cancel_other cancelled (keeps.apart points others).symm]
  | expire idEvent =>
      obtain ⟨_, ⟨⟩⟩ := Option.ite_none_right_eq_some.mp taken
      exact keeps.expire_other others
  | invoke index =>
      obtain ⟨handler, here, invoked⟩ := Option.bind_eq_some_iff.mp taken
      obtain ⟨_, waits, rfl⟩ := invoke_cases invoked
      refine ⟨⟨keeps.points, keeps.sole, keeps.command⟩, rfl, ?_⟩
      have apart : handler.timer ≠ owner.timer := by
        simpa only [Does, here, Option.map_some, Option.some.injEq] using others
      have count := waiting_invoke here waits owner.timer
      rw [decide_eq_false apart, Bool.toNat_false, Nat.add_zero] at count
      exact count
  | finish index outcome killed => exact keeps.finish taken

/-- StartRelative with a delay starts the timer, which has its command. -/
theorem Keeps.startRelative (keeps : owner.Keeps parties) {invocationDelay : Int} {answer : Nat}
    (later : 0 ≤ invocationDelay)
    (fresh : ∀ id, parties.newTimer owner.timer invocationDelay answer = some id →
      Fresh parties.timers id)
    (taken : parties.startRelative platform owner.timer invocationDelay answer = some after) :
    owner.Keeps after ∧ owner.running after = true ∧ owner.begun after = owner.begun parties := by
  have startable : Startable invocationDelay (parties.cmdToInvoke owner.timer) :=
    ⟨later, keeps.command⟩
  simp only [Parties.startRelative, if_pos startable] at taken
  obtain ⟨timers, set, rfl⟩ := Option.map_eq_some_iff.mp taken
  refine ⟨⟨keeps.points, keeps.sole, keeps.command⟩, ?_, rfl⟩
  have runs := timerSetTime_running (fun stopped => ?_) set
  · simp only [running, timerIsRunning, ne_eq, runs, not_false_eq_true, decide_true]
  · refine (fresh answer ?_).nonzero
    simp only [Parties.newTimer, startable, stopped, and_self, ↓reduceIte]

theorem Keeps.start (keeps : owner.Keeps parties) {invocationDelay : Int} {answer : Nat}
    (later : 0 ≤ invocationDelay)
    (fresh : FreshAnswers parties (.startRelative owner.wrapper invocationDelay answer))
    (taken : step platform parties (.startRelative owner.wrapper invocationDelay answer) =
      some after) :
    owner.Keeps after ∧ owner.running after = true ∧ owner.begun after = owner.begun parties := by
  simp only [FreshAnswers, answered, keeps.points, Option.bind_some] at fresh
  simp only [step, keeps.points, Option.bind_some] at taken
  exact keeps.startRelative later fresh taken

theorem Keeps.cancel (keeps : owner.Keeps parties) {killed : Bool}
    (taken : step platform parties (.cancel owner.wrapper killed) = some after) :
    owner.Keeps after ∧ owner.running after = false ∧
      owner.begun after = owner.begun parties := by
  simp only [step, keeps.points, Option.bind_some] at taken
  obtain ⟨timers, cancelled, rfl⟩ := cancel_cases taken
  refine ⟨⟨keeps.points, keeps.sole, keeps.command⟩, ?_, rfl⟩
  rw [cancel_eq cancelled]
  simp [running, timerIsRunning]

theorem Keeps.invoke (keeps : owner.Keeps parties) {index : Nat}
    (its : parties.handlers[index]?.map Handler.timer = some owner.timer)
    (taken : step platform parties (.invoke index) = some after) :
    owner.Keeps after ∧ owner.running after = owner.running parties ∧
      owner.begun after + 1 = owner.begun parties := by
  obtain ⟨handler, here, invoked⟩ := Option.bind_eq_some_iff.mp taken
  obtain ⟨_, waits, rfl⟩ := invoke_cases invoked
  have same : handler.timer = owner.timer := by
    simpa only [here, Option.map_some, Option.some.injEq] using its
  refine ⟨⟨keeps.points, keeps.sole, keeps.command⟩, rfl, ?_⟩
  have count := waiting_invoke here waits owner.timer
  rw [decide_eq_true same, Bool.toNat_true] at count
  exact count

theorem Allocated.cancel (allocated : Allocated parties) {timer : Nat} {killed : Bool}
    {timers : CmdTimerWin32}
    (cancelled : parties.timers.cancel platform timer killed = some timers)
    (started : Nat → Bool) :
    Allocated { parties with timers := timers, started := started } := by
  refine ⟨allocated.pointed, ?_, allocated.called⟩
  intro other running
  by_cases same : other = timer
  · subst same
    rw [cancel_eq cancelled] at running
    exact absurd (Function.update_self ..) running
  · exact allocated.running other (cancel_other cancelled same ▸ running)

theorem Allocated.release (allocated : Allocated parties) {timer : Nat} {killed : Bool}
    (taken : parties.release platform timer killed = some after) : Allocated after := by
  rcases release_cases taken with ⟨_, rfl⟩ | ⟨_, timers, cancelled, rfl⟩
  · exact allocated
  · exact allocated.cancel cancelled _

theorem Allocated.startRelative (allocated : Allocated parties) {timer answer : Nat}
    {invocationDelay : Int} (old : timer < parties.allocated)
    (taken : parties.startRelative platform timer invocationDelay answer = some after) :
    Allocated after := by
  rcases startRelative_cases taken with rfl | ⟨_, timers, set, rfl⟩
  · exact allocated
  · refine ⟨allocated.pointed, ?_, allocated.called⟩
    intro other running
    by_cases same : other = timer
    · exact same ▸ old
    · exact allocated.running other (timerSetTime_other set same ▸ running)

theorem Allocated.step (allocated : Allocated parties) (tables : Inv parties) {action : Action}
    (taken : step platform parties action = some after) : Allocated after := by
  cases action with
  | construct command =>
      cases taken
      exact allocated.append (Nat.le_succ _) (Nat.lt_succ_self _) _
  | constructStarted command timeRelative answer =>
      rcases constructStarted_cases taken with rfl | ⟨_, timers, created, rfl⟩
      · exact allocated
      · refine ⟨allocated.pointed, ?_, allocated.called⟩
        intro timer running
        exact allocated.running timer (timerID_createTimer created ▸ running)
  | copy source =>
      obtain ⟨timer, points, rfl⟩ := Option.map_eq_some_iff.mp taken
      exact allocated.append le_rfl (allocated.pointed source timer points) _
  | assign target source killed =>
      obtain ⟨old, points, rest⟩ := Option.bind_eq_some_iff.mp taken
      obtain ⟨new, pointsNew, released⟩ := Option.bind_eq_some_iff.mp rest
      refine (allocated.set points ?_).release released
      exact fun pointed same => Option.some.inj same ▸ allocated.pointed source new pointsNew
  | destroy wrapper killed =>
      obtain ⟨old, points, released⟩ := Option.bind_eq_some_iff.mp taken
      have none : ∀ pointed, Option.none = some pointed → pointed < parties.allocated :=
        fun pointed same => absurd same.symm (Option.some_ne_none pointed)
      exact (allocated.set points none).release released
  | setCmd wrapper cmdToInvoke =>
      obtain ⟨timer, _, rfl⟩ := Option.map_eq_some_iff.mp taken
      exact ⟨allocated.pointed, allocated.running, allocated.called⟩
  | startRelative wrapper invocationDelay answer =>
      obtain ⟨timer, points, started⟩ := Option.bind_eq_some_iff.mp taken
      exact allocated.startRelative (allocated.pointed wrapper timer points) started
  | startAbsolute wrapper invocationTime currentTime answer =>
      obtain ⟨timer, points, started⟩ := Option.bind_eq_some_iff.mp taken
      exact allocated.startRelative (allocated.pointed wrapper timer points) started
  | cancel wrapper killed =>
      obtain ⟨timer, _, cancels⟩ := Option.bind_eq_some_iff.mp taken
      obtain ⟨timers, cancelled, rfl⟩ := cancel_cases cancels
      exact allocated.cancel cancelled _
  | expire idEvent =>
      obtain ⟨_, ⟨⟩⟩ := Option.ite_none_right_eq_some.mp taken
      unfold Parties.expire
      split
      · exact allocated
      · rename_i timer found
        refine ⟨allocated.pointed, allocated.running, ?_⟩
        intro handler member
        rcases List.mem_append.mp member with old | new
        · exact allocated.called handler old
        · obtain ⟨its, nonzero⟩ := tables.consistent.owner idEvent timer found
          rw [List.mem_singleton.mp new]
          exact allocated.running timer (its ▸ nonzero)
  | invoke index =>
      obtain ⟨handler, here, invoked⟩ := Option.bind_eq_some_iff.mp taken
      obtain ⟨_, _, rfl⟩ := invoke_cases invoked
      refine ⟨allocated.pointed, allocated.running, ?_⟩
      intro other member
      rcases List.mem_or_eq_of_mem_set member with old | rfl
      · exact allocated.called other old
      · exact allocated.called handler (List.mem_of_getElem? here)
  | finish index outcome killed =>
      obtain ⟨handler, _, finished⟩ := Option.bind_eq_some_iff.mp taken
      have kept : Allocated { parties with handlers := parties.handlers.eraseIdx index } :=
        ⟨allocated.pointed, allocated.running,
          fun other member => allocated.called other (List.mem_of_mem_eraseIdx member)⟩
      exact kept.release (finish_cases finished).2

theorem allocated_initial : Allocated Parties.initial := by
  refine ⟨?_, fun _ running => absurd rfl running, nofun⟩
  intro wrapper timer points
  simp [Parties.pImpl, Parties.initial] at points

/-- The tables, the allocation and the owner's wrapper are in order. -/
structure Sound (owner : Owner) (parties : Parties) : Prop where
  tables : Inv parties
  allocated : Allocated parties
  keeps : owner.Keeps parties

theorem Sound.step (sound : owner.Sound parties) {action : Action}
    (fresh : FreshAnswers parties action) (taken : step platform parties action = some after)
    (keeps : owner.Keeps after) : owner.Sound after :=
  ⟨sound.tables.step fresh taken, sound.allocated.step sound.tables taken, keeps⟩

/-- A timer that has just been constructed is its owner's alone, and does not run. -/
theorem sound_next (tables : Inv parties) (allocated : Allocated parties) {command : Nat}
    (taken : step platform parties (.construct (some command)) = some after) :
    (next parties).Sound after ∧ (next parties).running after = false ∧
      (next parties).begun after = 0 := by
  have idle : parties.timers.timerID parties.allocated = 0 := by
    by_contra running
    exact lt_irrefl _ (allocated.running _ running)
  have kept := allocated.step tables taken
  cases taken
  refine ⟨⟨⟨tables.consistent, tables.started⟩, kept, ?_, ?_, ?_⟩, ?_, ?_⟩
  · exact pImpl_append_iff.mpr (.inr ⟨rfl, rfl⟩)
  · intro wrapper points
    rcases pImpl_append_iff.mp points with old | ⟨last, _⟩
    · exact absurd (allocated.pointed wrapper _ old) (lt_irrefl _)
    · exact last
  · simp [next]
  · simp [running, next, timerIsRunning, idle]
  · refine List.countP_eq_zero.mpr fun handler member counted => ?_
    have same : handler.timer = parties.allocated :=
      of_decide_eq_true ((Bool.and_eq_true _ _).mp counted).1
    exact lt_irrefl _ (same ▸ allocated.called handler member)

/-- The same after any run that may have gone before. -/
theorem sound_constructed {earlier : List Action} {command : Nat}
    (freshly : Along (step platform) FreshAnswers .initial earlier)
    (before : run (step platform) .initial earlier = some parties)
    (constructs : step platform parties (.construct (some command)) = some after) :
    (next parties).Sound after ∧ (next parties).running after = false ∧
      (next parties).begun after = 0 := by
  have past : Inv parties ∧ Allocated parties := by
    refine run_invariant_along (fun parties => Inv parties ∧ Allocated parties) ?_
      ⟨inv_initial, allocated_initial⟩ freshly before
    rintro state action later ⟨tables, allocated⟩ fresh taken
    exact ⟨tables.step fresh taken, allocated.step tables taken⟩
  exact sound_next past.1 past.2 constructs

end Steps

end Owner

end FrcRobot.CmdTimerWrappers
