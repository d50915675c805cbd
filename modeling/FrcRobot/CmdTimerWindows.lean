import FrcRobot.CmdTimerWin32
import FrcRobot.Interleaving

set_option autoImplicit false

/- The O/S's timers under the windows they were set for, and what Cancel leaves
of them. -/
namespace FrcRobot.CmdTimerWindows

open Interleaving CmdTimerWin32

/-- The tables of CmdTimerWin32Impl, and the O/S's timers by window and id. The
object that each of them was set for last is no part of the program. -/
structure Desktop where
  timers : CmdTimerWin32
  armed : Finmap fun _ : Option Nat × Nat => Nat

namespace Desktop

def initial : Desktop := ⟨CmdTimerWin32.initial, ∅⟩

/-- The id that TimerSetTime hands to SetTimer. -/
def asked (desktop : Desktop) (timer : Nat) : Nat :=
  if desktop.timers.timerID timer = 0 then desktop.timers.guaranteedUnusedID
  else desktop.timers.timerID timer

/-- What SetTimer may answer: 0 if it fails. For a window it sets the timer with
the id asked for; without one it sets the timer with that id again, or a new one
under an id of its own choice. -/
def Answers (desktop : Desktop) (window : Option Nat) (asked answer : Nat) : Prop :=
  answer = 0 ∨ match window with
    | some _ => answer = asked
    | none => if (none, asked) ∈ desktop.armed then answer = asked
        else (none, answer) ∉ desktop.armed

instance (desktop : Desktop) (window : Option Nat) (asked answer : Nat) :
    Decidable (desktop.Answers window asked answer) := by
  unfold Answers
  cases window <;> infer_instance

/-- `window` is what GetForegroundWindow returns. -/
def timerSetTime (platform : Platform) (desktop : Desktop) (timer : Nat) (window : Option Nat)
    (answer : Nat) : Option Desktop :=
  (desktop.timers.timerSetTime platform timer answer).map fun timers =>
    { timers := timers
      armed := if answer = 0 then desktop.armed else desktop.armed.insert (window, answer) timer }

/-- Cancel passes a null window, so KillTimer finds the timer only if it was set
without one. -/
def cancel (platform : Platform) (desktop : Desktop) (timer : Nat) : Option Desktop :=
  let key := (none, desktop.timers.timerID timer)
  (desktop.timers.cancel platform timer (decide (key ∈ desktop.armed))).map fun timers =>
    { timers := timers, armed := desktop.armed.erase key }

end Desktop

inductive Action where
  | timerSetTime (timer : Nat) (window : Option Nat) (answer : Nat)
  | cancel (timer : Nat)

/-- A process that LOG_FATAL has ended takes no step. -/
def step (platform : Platform) (desktop : Desktop) : Action → Option Desktop
  | .timerSetTime timer window answer =>
      if desktop.Answers window (desktop.asked timer) answer then
        desktop.timerSetTime platform timer window answer
      else none
  | .cancel timer => desktop.cancel platform timer

/-- Nothing is left of a timer that has been cancelled, and nothing else is gone. -/
structure Cancelled (desktop next : Desktop) (timer : Nat) : Prop where
  disarmed : ∀ key, next.armed.lookup key ≠ some timer
  unmapped : desktop.timers.timerID timer ∉ next.timers.idToTimerMap
  unused : desktop.timers.timerID timer ∉ next.timers.usedIDs
  stopped : next.timers.timerID timer = 0
  ids : ∀ other, other ≠ timer → next.timers.timerID other = desktop.timers.timerID other
  entries : ∀ other, other ≠ timer → ∀ id,
    next.timers.timerHandler id = some other ↔ desktop.timers.timerHandler id = some other
  used : ∀ other, other ≠ timer → desktop.timers.timerID other ≠ 0 →
    (desktop.timers.timerID other ∈ next.timers.usedIDs ↔
      desktop.timers.timerID other ∈ desktop.timers.usedIDs)

/-- The O/S's timers of the object were set without a window and under its id, and
there is none of them unless LOG_FATAL only logs. No other object has the id, or
an entry under it. -/
structure Clean (platform : Platform) (desktop : Desktop) (timer : Nat) : Prop where
  windowless : ∀ key, desktop.armed.lookup key = some timer →
    key = (none, desktop.timers.timerID timer)
  survives : platform.unitTest = true ∨ (none, desktop.timers.timerID timer) ∉ desktop.armed
  entry : ∀ other, other ≠ timer →
    desktop.timers.timerHandler (desktop.timers.timerID timer) ≠ some other
  alone : ∀ other, other ≠ timer → desktop.timers.timerID other ≠ 0 →
    desktop.timers.timerID other ∈ desktop.timers.usedIDs →
    desktop.timers.timerID other ≠ desktop.timers.timerID timer

theorem cancel_cases {platform : Platform} {desktop next : Desktop} {timer : Nat}
    (taken : desktop.cancel platform timer = some next) :
    (platform.unitTest = true ∨ (none, desktop.timers.timerID timer) ∉ desktop.armed) ∧
      next.timers.idToTimerMap =
        desktop.timers.idToTimerMap.erase (desktop.timers.timerID timer) ∧
      next.timers.usedIDs = desktop.timers.usedIDs.erase (desktop.timers.timerID timer) ∧
      next.timers.timerID = Function.update desktop.timers.timerID timer 0 ∧
      next.timers.guaranteedUnusedID = desktop.timers.guaranteedUnusedID ∧
      next.armed = desktop.armed.erase (none, desktop.timers.timerID timer) := by
  obtain ⟨timers, cancelled, rfl⟩ := Option.map_eq_some_iff.mp taken
  have tables := cancel_eq cancelled
  refine ⟨?_, ?_⟩
  · by_contra fatal
    obtain ⟨production, armed⟩ := not_or.mp fatal
    rw [CmdTimerWin32.cancel, if_pos] at cancelled
    · cases cancelled
    · simp [production, not_not.mp armed]
  · rw [tables]
    exact ⟨rfl, rfl, rfl, rfl, rfl⟩

theorem cancel_exists {platform : Platform} {desktop : Desktop} {timer : Nat}
    (survives : platform.unitTest = true ∨
      (none, desktop.timers.timerID timer) ∉ desktop.armed) :
    ∃ next, desktop.cancel platform timer = some next := by
  have calm : ¬(decide ((none, desktop.timers.timerID timer) ∈ desktop.armed) &&
      !platform.unitTest) = true := by
    rcases survives with test | absent
    · simp [test]
    · simp [absent]
  exact ⟨_, congrArg (Option.map _) (if_neg calm)⟩

theorem clean_of_cancelled {platform : Platform} {desktop next : Desktop} {timer : Nat}
    (taken : desktop.cancel platform timer = some next)
    (cancelled : Cancelled desktop next timer) : Clean platform desktop timer := by
  obtain ⟨survives, map, _, _, _, armed⟩ := cancel_cases taken
  refine ⟨?_, survives, ?_, ?_⟩
  · intro key here
    by_contra other
    have gone := cancelled.disarmed key
    rw [armed, Finmap.lookup_erase_ne other] at gone
    exact gone here
  · intro other apart found
    have kept := (cancelled.entries other apart _).mpr found
    rw [timerHandler, map, Finmap.lookup_erase] at kept
    cases kept
  · intro other apart running member same
    have kept := (cancelled.used other apart running).mpr member
    rw [same] at kept
    exact cancelled.unused kept

theorem cancelled_of_clean {platform : Platform} {desktop next : Desktop} {timer : Nat}
    (taken : desktop.cancel platform timer = some next)
    (clean : Clean platform desktop timer) : Cancelled desktop next timer := by
  obtain ⟨_, map, ids, timerID, _, armed⟩ := cancel_cases taken
  refine ⟨?_, ?_, ?_, ?_, ?_, ?_, ?_⟩
  · intro key here
    rw [armed] at here
    by_cases same : key = (none, desktop.timers.timerID timer)
    · rw [same, Finmap.lookup_erase] at here
      cases here
    · rw [Finmap.lookup_erase_ne same] at here
      exact same (clean.windowless key here)
  · rw [map]
    exact Finmap.notMem_erase_self
  · rw [ids]
    exact Finset.notMem_erase _ _
  · rw [timerID, Function.update_self]
  · intro other apart
    rw [timerID, Function.update_of_ne apart]
  · intro other apart id
    rw [timerHandler, timerHandler, map]
    by_cases same : id = desktop.timers.timerID timer
    · rw [same, Finmap.lookup_erase]
      exact iff_of_false (Option.some_ne_none _ ·.symm) (clean.entry other apart)
    · rw [Finmap.lookup_erase_ne same]
  · intro other apart running
    rw [ids, Finset.mem_erase]
    constructor
    · exact And.right
    · intro member
      exact ⟨clean.alone other apart running member, member⟩

/-- Cancel does what it is for just in clean states. -/
theorem cancelled_iff_clean (platform : Platform) (desktop : Desktop) (timer : Nat) :
    (∃ next, desktop.cancel platform timer = some next ∧ Cancelled desktop next timer) ↔
      Clean platform desktop timer := by
  constructor
  · rintro ⟨next, taken, cancelled⟩
    exact clean_of_cancelled taken cancelled
  · intro clean
    obtain ⟨next, taken⟩ := cancel_exists clean.survives
    exact ⟨next, taken, cancelled_of_clean taken clean⟩

/-- Where LOG_FATAL ends the process, a running timer that the O/S has not set
without a window has an id in use of its own, and was set with some window. -/
structure Held (desktop : Desktop) (timer : Nat) : Prop where
  used : desktop.timers.timerID timer ∈ desktop.timers.usedIDs
  set : ∃ window, desktop.armed.lookup (some window, desktop.timers.timerID timer) = some timer
  alone : ∀ other, other ≠ timer →
    desktop.timers.timerID other ≠ desktop.timers.timerID timer

/-- A running timer that Cancel could take off without ending the process. -/
def Exposed (desktop : Desktop) (timer : Nat) : Prop :=
  desktop.timers.timerID timer ≠ 0 ∧ (none, desktop.timers.timerID timer) ∉ desktop.armed

structure Inv (desktop : Desktop) : Prop where
  unused : desktop.timers.guaranteedUnusedID ∉ desktop.timers.usedIDs
  held : ∀ timer, Exposed desktop timer → Held desktop timer

theorem inv_initial : Inv Desktop.initial := by
  refine ⟨?_, fun timer exposed => absurd rfl exposed.1⟩
  exact Finset.notMem_singleton.mpr Nat.one_ne_zero

theorem create_tables {platform : Platform} {desktop next : Desktop} {timer answer : Nat}
    {window : Option Nat} (stopped : desktop.timers.timerID timer = 0)
    (taken : desktop.timerSetTime platform timer window answer = some next) :
    next.timers.guaranteedUnusedID ∉ next.timers.usedIDs ∧
      next.timers.usedIDs = insert answer desktop.timers.usedIDs ∧
      next.timers.timerID = Function.update desktop.timers.timerID timer answer ∧
      next.armed =
        if answer = 0 then desktop.armed else desktop.armed.insert (window, answer) timer := by
  obtain ⟨timers, set, rfl⟩ := Option.map_eq_some_iff.mp taken
  rcases timerSetTime_cases set with ⟨_, created, creates, rfl⟩ | ⟨running, _⟩
  · obtain ⟨unused, searched, rfl⟩ := createTimer_eq creates
    exact ⟨FirstUnused.search_notMem searched, rfl, rfl, rfl⟩
  · exact absurd stopped running

theorem restart_tables {platform : Platform} {desktop next : Desktop} {timer answer : Nat}
    {window : Option Nat} (running : desktop.timers.timerID timer ≠ 0)
    (taken : desktop.timerSetTime platform timer window answer = some next) :
    next.timers.guaranteedUnusedID = desktop.timers.guaranteedUnusedID ∧
      next.timers.usedIDs = desktop.timers.usedIDs ∧
      next.timers.timerID = desktop.timers.timerID ∧
      next.armed =
        if answer = 0 then desktop.armed else desktop.armed.insert (window, answer) timer := by
  obtain ⟨timers, set, rfl⟩ := Option.map_eq_some_iff.mp taken
  rcases timerSetTime_cases set with ⟨stopped, _⟩ | ⟨_, rfl⟩
  · exact absurd stopped running
  · exact ⟨rfl, rfl, rfl, rfl⟩

theorem answer_eq_asked {desktop : Desktop} {window asked answer : Nat}
    (answers : desktop.Answers (some window) asked answer) (set : answer ≠ 0) : answer = asked :=
  answers.resolve_left set

/-- A start that fails sets no timer, so what was held still is. -/
theorem Inv.failed {platform : Platform} {desktop next : Desktop} {timer : Nat}
    {window : Option Nat} (inv : Inv desktop) (stopped : desktop.timers.timerID timer = 0)
    (taken : desktop.timerSetTime platform timer window 0 = some next) : Inv next := by
  obtain ⟨unused, used, ids, armed⟩ := create_tables stopped taken
  rw [if_pos rfl] at armed
  have kept : next.timers.timerID = desktop.timers.timerID := by
    rw [ids, ← stopped, Function.update_eq_self]
  refine ⟨unused, ?_⟩
  rintro other ⟨running, exposed⟩
  rw [kept] at running
  rw [kept, armed] at exposed
  have held := inv.held other ⟨running, exposed⟩
  refine ⟨?_, ?_, ?_⟩
  · rw [kept, used]
    exact Finset.mem_insert_of_mem held.used
  · rw [kept, armed]
    exact held.set
  · rw [kept]
    exact held.alone

/-- Only a timer that the O/S sets for a window is exposed from the start. -/
theorem windowed_of_exposed {platform : Platform} {desktop next : Desktop} {timer answer : Nat}
    {window : Option Nat} (stopped : desktop.timers.timerID timer = 0) (set : answer ≠ 0)
    (taken : desktop.timerSetTime platform timer window answer = some next)
    (exposed : (none, answer) ∉ next.armed) : ∃ foreground, window = some foreground := by
  obtain ⟨_, _, _, armed⟩ := create_tables stopped taken
  rw [if_neg set] at armed
  cases window with
  | some foreground => exact ⟨foreground, rfl⟩
  | none =>
      refine absurd ?_ exposed
      rw [armed]
      exact Finmap.mem_insert.mpr (.inl rfl)

/-- An id that one timer has alone stays its own when another timer takes a
different one. -/
theorem alone_update {ids : Nat → Nat} {timer other id : Nat} (apart : other ≠ timer)
    (alone : ∀ third, third ≠ other → ids third ≠ ids other) (different : id ≠ ids other)
    (third : Nat) (distinct : third ≠ other) :
    Function.update ids timer id third ≠ Function.update ids timer id other := by
  rw [Function.update_of_ne apart]
  by_cases taken : third = timer
  · rw [taken, Function.update_self]
    exact different
  · rw [Function.update_of_ne taken]
    exact alone third distinct

/-- A timer that is exposed after another one has been created was so before, and
the new one has got a different id. -/
theorem held_of_create {platform : Platform} {desktop next : Desktop}
    {timer answer other : Nat} {window : Option Nat} (inv : Inv desktop)
    (stopped : desktop.timers.timerID timer = 0) (set : answer ≠ 0)
    (answers : desktop.Answers window (desktop.asked timer) answer)
    (taken : desktop.timerSetTime platform timer window answer = some next)
    (running : desktop.timers.timerID other ≠ 0)
    (exposed : (none, desktop.timers.timerID other) ∉ next.armed) :
    Held desktop other ∧ answer ≠ desktop.timers.timerID other := by
  obtain ⟨_, _, _, armed⟩ := create_tables stopped taken
  rw [if_neg set] at armed
  have clear : (none, desktop.timers.timerID other) ∉ desktop.armed := by
    intro member
    apply exposed
    rw [armed]
    exact Finmap.mem_insert.mpr (.inr member)
  have held := inv.held other ⟨running, clear⟩
  refine ⟨held, fun same => ?_⟩
  obtain ⟨foreground, rfl⟩ := windowed_of_exposed stopped set taken (same ▸ exposed)
  have asks : desktop.asked timer = desktop.timers.guaranteedUnusedID := if_pos stopped
  apply inv.unused
  rw [← asks, ← answer_eq_asked answers set, same]
  exact held.used

/-- A new timer that the O/S sets for a window has the id that was not in use, and
one that it sets without a window is not exposed. -/
theorem Inv.create {platform : Platform} {desktop next : Desktop} {timer answer : Nat}
    {window : Option Nat} (inv : Inv desktop) (stopped : desktop.timers.timerID timer = 0)
    (set : answer ≠ 0) (answers : desktop.Answers window (desktop.asked timer) answer)
    (taken : desktop.timerSetTime platform timer window answer = some next) : Inv next := by
  obtain ⟨unused, used, ids, armed⟩ := create_tables stopped taken
  rw [if_neg set] at armed
  refine ⟨unused, ?_⟩
  rintro other ⟨running, exposed⟩
  by_cases started : other = timer
  · subst started
    rw [ids, Function.update_self] at exposed
    obtain ⟨foreground, rfl⟩ := windowed_of_exposed stopped set taken exposed
    refine ⟨?_, ⟨foreground, ?_⟩, ?_⟩
    · rw [ids, used, Function.update_self]
      exact Finset.mem_insert_self ..
    · rw [ids, armed, Function.update_self, Finmap.lookup_insert]
    · intro third apart
      rw [ids, Function.update_self, Function.update_of_ne apart]
      intro same
      have nonzero : desktop.timers.timerID third ≠ 0 := same ▸ set
      exact (held_of_create inv stopped set answers taken nonzero (same ▸ exposed)).2 same.symm
  · rw [ids, Function.update_of_ne started] at running exposed
    obtain ⟨held, other_id⟩ := held_of_create inv stopped set answers taken running exposed
    obtain ⟨foreground, here⟩ := held.set
    refine ⟨?_, ⟨foreground, ?_⟩, ?_⟩
    · rw [ids, used, Function.update_of_ne started]
      exact Finset.mem_insert_of_mem held.used
    · rw [ids, armed, Function.update_of_ne started, Finmap.lookup_insert_of_ne]
      · exact here
      · intro same
        exact other_id (Prod.mk.inj same).2.symm
    · rw [ids]
      exact alone_update started held.alone other_id

theorem Inv.restart {platform : Platform} {desktop next : Desktop} {timer answer : Nat}
    {window : Option Nat} (inv : Inv desktop) (running : desktop.timers.timerID timer ≠ 0)
    (answers : desktop.Answers window (desktop.asked timer) answer)
    (taken : desktop.timerSetTime platform timer window answer = some next) : Inv next := by
  obtain ⟨counter, used, ids, armed⟩ := restart_tables running taken
  have asks : desktop.asked timer = desktop.timers.timerID timer := if_neg running
  refine ⟨?_, ?_⟩
  · rw [counter, used]
    exact inv.unused
  rintro other ⟨runs, exposed⟩
  rw [ids] at runs exposed
  have clear : (none, desktop.timers.timerID other) ∉ desktop.armed := by
    intro member
    apply exposed
    rw [armed]
    split
    · exact member
    · exact Finmap.mem_insert.mpr (.inr member)
  have held := inv.held other ⟨runs, clear⟩
  obtain ⟨foreground, here⟩ := held.set
  refine ⟨?_, ⟨foreground, ?_⟩, ?_⟩
  · rw [ids, used]
    exact held.used
  · rw [ids, armed]
    split
    · exact here
    · rename_i set
      by_cases key : ((some foreground, desktop.timers.timerID other) : Option Nat × Nat) =
          (window, answer)
      · -- The same window and id: it is this timer that is started again.
        obtain ⟨rfl, same⟩ := Prod.mk.inj key
        have own : desktop.timers.timerID timer = desktop.timers.timerID other := by
          rw [same, answer_eq_asked answers set, asks]
        have one : timer = other := by
          by_contra apart
          exact held.alone timer apart own
        rw [key, Finmap.lookup_insert, one]
      · rw [Finmap.lookup_insert_of_ne _ key]
        exact here
  · rw [ids]
    exact held.alone

theorem Inv.cancel {platform : Platform} {desktop next : Desktop} {timer : Nat}
    (inv : Inv desktop) (production : platform.unitTest = false)
    (taken : desktop.cancel platform timer = some next) : Inv next := by
  obtain ⟨survives, _, used, ids, counter, armed⟩ := cancel_cases taken
  have absent : (none, desktop.timers.timerID timer) ∉ desktop.armed :=
    survives.resolve_left (by simp [production])
  refine ⟨?_, ?_⟩
  · rw [counter, used]
    exact fun member => inv.unused (Finset.mem_of_mem_erase member)
  rintro other ⟨running, exposed⟩
  have apart : other ≠ timer := by
    rintro rfl
    rw [ids, Function.update_self] at running
    exact running rfl
  rw [ids, Function.update_of_ne apart] at running exposed
  have clear : (none, desktop.timers.timerID other) ∉ desktop.armed := by
    intro member
    by_cases same : desktop.timers.timerID other = desktop.timers.timerID timer
    · exact absent (same ▸ member)
    · apply exposed
      rw [armed]
      refine Finmap.mem_erase.mpr ⟨fun key => same (Prod.mk.inj key).2, member⟩
  have held := inv.held other ⟨running, clear⟩
  have different := held.alone timer apart.symm
  obtain ⟨foreground, here⟩ := held.set
  refine ⟨?_, ⟨foreground, ?_⟩, ?_⟩
  · rw [ids, used, Function.update_of_ne apart]
    exact Finset.mem_erase_of_ne_of_mem different.symm held.used
  · rw [ids, armed, Function.update_of_ne apart, Finmap.lookup_erase_ne]
    · exact here
    · intro key
      cases (Prod.mk.inj key).1
  · rw [ids]
    exact alone_update apart held.alone running.symm

theorem Inv.step {platform : Platform} {desktop next : Desktop} {action : Action}
    (inv : Inv desktop) (production : platform.unitTest = false)
    (taken : step platform desktop action = some next) : Inv next := by
  cases action with
  | timerSetTime timer window answer =>
      obtain ⟨answers, set⟩ := Option.ite_none_right_eq_some.mp taken
      by_cases running : desktop.timers.timerID timer = 0
      · by_cases failed : answer = 0
        · subst failed
          exact inv.failed running set
        · exact inv.create running failed answers set
      · exact inv.restart running answers set
  | cancel timer => exact inv.cancel production taken

theorem not_clean_running {platform : Platform} {desktop : Desktop} {timer : Nat}
    (inv : Inv desktop) (production : platform.unitTest = false)
    (running : desktop.timers.timerID timer ≠ 0) : ¬Clean platform desktop timer := by
  intro clean
  have absent := clean.survives.resolve_left (by simp [production])
  obtain ⟨foreground, here⟩ := (inv.held timer ⟨running, absent⟩).set
  have windowless := clean.windowless _ here
  cases (Prod.mk.inj windowless).1

/-- Cancel does what it is for just in clean states, and no state in which the
timer runs is clean unless LOG_FATAL only logs. -/
theorem cancel_iff (platform : Platform) (actions : List Action) (desktop : Desktop)
    (ran : run (step platform) Desktop.initial actions = some desktop) (timer : Nat) :
    ((∃ next, desktop.cancel platform timer = some next ∧ Cancelled desktop next timer) ↔
      Clean platform desktop timer) ∧
    (platform.unitTest = false → desktop.timers.timerID timer ≠ 0 →
      ¬Clean platform desktop timer) := by
  refine ⟨cancelled_iff_clean platform desktop timer, fun production running => ?_⟩
  have inv : Inv desktop :=
    run_invariant Inv (fun _ _ _ before taken => before.step production taken) inv_initial ran
  exact not_clean_running inv production running

/-- In a build of the tests, a timer started while there is no window. -/
theorem cancel_iff_windowless : ∃ desktop,
    run (step .unitTests) Desktop.initial [.timerSetTime 0 none 7] = some desktop ∧
    ∃ next, desktop.cancel .unitTests 0 = some next ∧ Cancelled desktop next 0 := by
  refine ⟨_, rfl, (cancel_iff .unitTests [.timerSetTime 0 none 7] _ rfl 0).1.mpr ?_⟩
  refine ⟨fun key here => ?_, .inl rfl, fun other apart found => ?_, fun other apart running => ?_⟩
  · by_contra different
    have apart : key ≠ (none, 7) := different
    have set : Finmap.lookup key (Finmap.insert (none, 7) 0 Desktop.initial.armed) = some 0 := here
    rw [Finmap.lookup_insert_of_ne _ apart] at set
    cases set
  · exact apart (Option.some.inj (found.symm.trans (by decide)))
  · exact absurd (Function.update_of_ne apart _ _) running

/-- A build for the robot. -/
def robot : Platform := ⟨2 ^ 32, false⟩

/-- Without a window KillTimer succeeds, and the process ends; with one it fails,
and the O/S goes on calling back for the timer. -/
theorem not_cancelled_robot :
    run (step robot) Desktop.initial [.timerSetTime 0 none 7, .cancel 0] = none ∧
    ∃ desktop next,
      run (step robot) Desktop.initial [.timerSetTime 0 (some 1) 1] = some desktop ∧
      desktop.cancel robot 0 = some next ∧ next.armed.lookup (some 1, 1) = some 0 ∧
      ¬Cancelled desktop next 0 := by
  refine ⟨by decide, _, _, rfl, rfl, by decide, fun cancelled => ?_⟩
  exact cancelled.disarmed (some 1, 1) (by decide)

end FrcRobot.CmdTimerWindows
