import FrcRobot.CmdTimerIds

set_option autoImplicit false

/- Starts for which SetTimer answers 0, which TimerSetTime notices only after it
has updated the tables. -/
namespace FrcRobot.CmdTimerWrappers

open Interleaving CmdTimerWin32

/-- What is called on a timer later; the callback only looks its id up. -/
inductive TableCall where
  | cancel (timer : Nat) (killed : Bool)
  | timerSetTime (timer answer : Nat)

def perform (platform : Platform) (timers : CmdTimerWin32) : TableCall → Option CmdTimerWin32
  | .cancel timer killed => timers.cancel platform timer killed
  | .timerSetTime timer answer => timers.timerSetTime platform timer answer

/-- Only the number of requests for a new timer differs, so a callback finds the
same timers. -/
def SameTables (first second : CmdTimerWin32) : Prop :=
  ∃ creations, second = { first with creations := creations }

/-- The state after a start that failed, compared with the one before it. -/
structure AsIfNotStarted (platform : Platform) (timers next : CmdTimerWin32) (timer : Nat) :
    Prop where
  usedIDs : next.usedIDs = timers.usedIDs
  idToTimerMap : next.idToTimerMap = timers.idToTimerMap
  guaranteedUnusedID : next.guaranteedUnusedID = timers.guaranteedUnusedID
  stopped : next.timerID timer = 0
  handled : ∀ idEvent, next.timerHandler idEvent = timers.timerHandler idEvent
  later : ∀ calls,
    Option.Rel SameTables (run (perform platform) timers calls) (run (perform platform) next calls)

theorem perform_sameTables (platform : Platform) (first second : CmdTimerWin32) (call : TableCall)
    (same : SameTables first second) :
    Option.Rel SameTables (perform platform first call) (perform platform second call) := by
  obtain ⟨creations, rfl⟩ := same
  cases call with
  | cancel timer killed =>
      simp only [perform, CmdTimerWin32.cancel]
      split
      · exact .none
      · exact .some ⟨creations, rfl⟩
  | timerSetTime timer answer =>
      simp only [perform, CmdTimerWin32.timerSetTime, CmdTimerWin32.createTimer]
      split
      · cases FirstUnused.search platform.uintPtrValues (insert answer first.usedIDs)
            ((insert answer first.usedIDs).card + 1) first.guaranteedUnusedID with
        | none => exact .none
        | some unused => exact .some ⟨creations + 1, rfl⟩
      · exact .some ⟨creations, rfl⟩

/-- Whatever SetTimer answers, the id to ask for next is not in use. -/
theorem unused_run {platform : Platform} {actions : List Action} {parties : Parties}
    (ran : run (step platform) Parties.initial actions = some parties) :
    parties.timers.guaranteedUnusedID ∉ parties.timers.usedIDs := by
  refine run_invariant
    (fun parties => parties.timers.guaranteedUnusedID ∉ parties.timers.usedIDs) ?_
    registered_initial.unused ran
  intro parties action next unused taken
  rcases step_counter taken with ⟨answer, created, creates, counter, ids, _⟩ | ⟨counter, fewer, _⟩
  · obtain ⟨found, searched, rfl⟩ := createTimer_eq creates
    rw [counter, ids]
    exact FirstUnused.search_notMem searched
  · rw [counter]
    exact fun member => unused (fewer member)

theorem mem_insertNew (map : Finmap fun _ : Nat => Nat) (key value : Nat) :
    key ∈ insertNew map key value := by
  unfold insertNew
  split
  · assumption
  · exact Finmap.mem_insert.mpr (.inl rfl)

/-- With 0 in both tables already, a start that fails only counts as a request. -/
theorem timerSetTime_failed {platform : Platform} {timers : CmdTimerWin32} {timer : Nat}
    (unused : timers.guaranteedUnusedID ∉ timers.usedIDs) (stopped : timers.timerID timer = 0)
    (used : 0 ∈ timers.usedIDs) (mapped : 0 ∈ timers.idToTimerMap) :
    timers.timerSetTime platform timer 0 =
      some { timers with creations := timers.creations + 1 } := by
  have ids : insert 0 timers.usedIDs = timers.usedIDs := Finset.insert_eq_self.mpr used
  have found : FirstUnused.search platform.uintPtrValues timers.usedIDs
      (timers.usedIDs.card + 1) timers.guaranteedUnusedID = some timers.guaranteedUnusedID := by
    rw [FirstUnused.search, if_neg unused]
  have kept : Function.update timers.timerID timer 0 = timers.timerID := by
    rw [← stopped, Function.update_eq_self]
  simp only [CmdTimerWin32.timerSetTime, stopped, ↓reduceIte, createTimer, ids, found,
    Option.map_some, insertNew, mapped, kept]

/-- A start that fails goes unnoticed just if 0 is still among the ids in use and
an earlier failure has left an entry for it in the map. -/
theorem failed_start_iff (platform : Platform) (actions : List Action) (parties : Parties)
    (timer : Nat) (ran : run (step platform) Parties.initial actions = some parties)
    (stopped : parties.timers.timerID timer = 0) :
    (∃ next, parties.timers.timerSetTime platform timer 0 = some next ∧
      AsIfNotStarted platform parties.timers next timer) ↔
    0 ∈ parties.timers.usedIDs ∧ 0 ∈ parties.timers.idToTimerMap := by
  constructor
  · rintro ⟨next, taken, same⟩
    rcases timerSetTime_cases taken with ⟨_, created, creates, rfl⟩ | ⟨running, _⟩
    · obtain ⟨unused, _, rfl⟩ := createTimer_eq creates
      constructor
      · rw [← same.usedIDs]
        exact Finset.mem_insert_self ..
      · rw [← same.idToTimerMap]
        exact mem_insertNew ..
    · exact absurd stopped running
  · rintro ⟨used, mapped⟩
    have failed : parties.timers.timerSetTime platform timer 0 = _ :=
      timerSetTime_failed (unused_run ran) stopped used mapped
    refine ⟨_, failed, rfl, rfl, rfl, stopped, fun _ => rfl, fun calls => ?_⟩
    exact run_rel (perform_sameTables platform) ⟨_, rfl⟩ calls

/-- A timer whose start fails a second time. -/
theorem failed_start_iff_again : ∃ parties,
    run (step .unitTests) Parties.initial [.construct (some 0), .startRelative 0 1000 0] =
      some parties ∧
    ∃ next, parties.timers.timerSetTime .unitTests 0 0 = some next ∧
      AsIfNotStarted .unitTests parties.timers next 0 :=
  ⟨_, rfl, (failed_start_iff .unitTests [.construct (some 0), .startRelative 0 1000 0] _ 0 rfl
    rfl).mpr ⟨by decide, by decide⟩⟩

/-- The first start that fails leaves the timer in the map, where a callback for
the id 0 would find it. -/
theorem not_asIfNotStarted_first : ∃ parties next,
    run (step .unitTests) Parties.initial [.construct (some 0)] = some parties ∧
    parties.timers.timerID 0 = 0 ∧
    parties.timers.timerSetTime .unitTests 0 0 = some next ∧
    parties.timers.timerHandler 0 = none ∧ next.timerHandler 0 = some 0 ∧
    ¬AsIfNotStarted .unitTests parties.timers next 0 := by
  refine ⟨_, _, rfl, rfl, rfl, by decide, by decide, fun same => ?_⟩
  exact absurd (same.handled 0) (by decide)

end FrcRobot.CmdTimerWrappers
