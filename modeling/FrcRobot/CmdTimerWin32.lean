import FrcRobot.CmdProcessor
import FrcRobot.FirstUnused
import Mathlib.Data.Finmap

set_option autoImplicit false

namespace FrcRobot

/-- What the build decides: how many values UINT_PTR has, and whether LOG_FATAL
only logs, as in UNIT_TEST builds, or ends the process. -/
structure Platform where
  uintPtrValues : Nat
  unitTest : Bool

/-- A 32-bit build of the tests. -/
def Platform.unitTests : Platform := ⟨2 ^ 32, true⟩

/-- What the catch clauses of operator() and onTimerFire let pass would leave the callback and
end the process. -/
def Outcome.Caught : Outcome → Prop
  | .returns => True
  | .throws _ isStdException => isStdException = true

instance : (outcome : Outcome) → Decidable outcome.Caught
  | .returns => .isTrue trivial
  | .throws _ isStdException => inferInstanceAs (Decidable (isStdException = true))

/-- The static tables of CmdTimerWin32Impl, the `_timerID` of each of its objects,
and the ids for which the O/S has a timer set. `creations` is no part of the
program: how often SetTimer has been asked for a new timer. -/
structure CmdTimerWin32 where
  guaranteedUnusedID : Nat
  usedIDs : Finset Nat
  idToTimerMap : Finmap fun _ : Nat => Nat
  timerID : Nat → Nat
  setTimers : Finset Nat
  creations : Nat

namespace CmdTimerWin32

def initial : CmdTimerWin32 := ⟨1, {0}, ∅, fun _ => 0, ∅, 0⟩

/-- The insert of std::map, which leaves a key alone that is there. -/
def insertNew (map : Finmap fun _ : Nat => Nat) (key value : Nat) : Finmap fun _ : Nat => Nat :=
  if key ∈ map then map else map.insert key value

/-- SetTimer with the unused id, whatever id it answers, and the first two steps
of TimerSetTime. A loop that never ends has no next state. -/
def createTimer (platform : Platform) (timers : CmdTimerWin32) (answer : Nat) :
    Option CmdTimerWin32 :=
  let usedIDs := insert answer timers.usedIDs
  (FirstUnused.search platform.uintPtrValues usedIDs (usedIDs.card + 1)
    timers.guaranteedUnusedID).map fun unused =>
      { timers with
        guaranteedUnusedID := unused
        usedIDs := usedIDs
        setTimers := if answer = 0 then timers.setTimers else insert answer timers.setTimers
        creations := timers.creations + 1 }

def timerSetTime (platform : Platform) (timers : CmdTimerWin32) (timer answer : Nat) :
    Option CmdTimerWin32 :=
  if timers.timerID timer = 0 then
    (timers.createTimer platform answer).map fun created =>
      { created with
        timerID := Function.update created.timerID timer answer
        idToTimerMap := insertNew created.idToTimerMap answer timer }
  else some { timers with setTimers := insert (timers.timerID timer) timers.setTimers }

/-- KillTimer may have killed the timer or not; when it has, LOG_FATAL is reached. -/
def cancel (platform : Platform) (timers : CmdTimerWin32) (timer : Nat) (killed : Bool) :
    Option CmdTimerWin32 :=
  if killed && !platform.unitTest then none
  else some { timers with
    idToTimerMap := timers.idToTimerMap.erase (timers.timerID timer)
    usedIDs := timers.usedIDs.erase (timers.timerID timer)
    timerID := Function.update timers.timerID timer 0
    setTimers := if killed then timers.setTimers.erase (timers.timerID timer)
      else timers.setTimers }

/-- The timer that TimerHandler finds for an id, if any. -/
def timerHandler (timers : CmdTimerWin32) (idEvent : Nat) : Option Nat :=
  timers.idToTimerMap.lookup idEvent

def timerIsRunning (timers : CmdTimerWin32) (timer : Nat) : Bool := timers.timerID timer ≠ 0

/-- StartRelative throws before it does anything when the delay is negative or
there is no command. -/
def Startable (invocationDelay : Int) (cmdToInvoke : Option Nat) : Prop :=
  0 ≤ invocationDelay ∧ cmdToInvoke.isSome = true

instance (invocationDelay : Int) (cmdToInvoke : Option Nat) :
    Decidable (Startable invocationDelay cmdToInvoke) :=
  inferInstanceAs (Decidable (_ ∧ _))

/-- An id that SetTimer may answer: not 0, and no running timer has it. -/
structure Fresh (timers : CmdTimerWin32) (answer : Nat) : Prop where
  nonzero : answer ≠ 0
  free : ∀ timer, timers.timerID timer ≠ answer

/-- The map knows exactly the running timers, each under its own id, and the O/S
has a timer set for each of them. -/
structure Consistent (timers : CmdTimerWin32) : Prop where
  mapped : ∀ timer, timers.timerID timer ≠ 0 →
    timers.timerHandler (timers.timerID timer) = some timer
  owner : ∀ id timer, timers.timerHandler id = some timer →
    timers.timerID timer = id ∧ id ≠ 0
  used : ∀ timer, timers.timerID timer ≠ 0 → timers.timerID timer ∈ timers.usedIDs
  armed : ∀ timer, timers.timerID timer ≠ 0 → timers.timerID timer ∈ timers.setTimers

theorem consistent_initial : Consistent initial := by
  constructor
  · intro timer running
    exact absurd rfl running
  · intro id timer found
    cases found
  · intro timer running
    exact absurd rfl running
  · intro timer running
    exact absurd rfl running

theorem lookup_insertNew {map : Finmap fun _ : Nat => Nat} {key value id : Nat} :
    (insertNew map key value).lookup id =
      if id = key ∧ key ∉ map then some value else map.lookup id := by
  unfold insertNew
  by_cases present : key ∈ map
  · simp [present]
  · by_cases same : id = key
    · subst same
      simp [present, Finmap.lookup_insert]
    · simp [present, same, Finmap.lookup_insert_of_ne _ same]

/-- An entry of the map afterwards is the new one, or was there before. -/
theorem insertNew_cases {map : Finmap fun _ : Nat => Nat} {key value id other : Nat}
    (found : (insertNew map key value).lookup id = some other) :
    (id = key ∧ other = value) ∨ map.lookup id = some other := by
  rw [lookup_insertNew] at found
  split at found
  · rename_i new
    exact .inl ⟨new.1, (Option.some.inj found).symm⟩
  · exact .inr found

theorem createTimer_eq {platform : Platform} {timers next : CmdTimerWin32} {answer : Nat}
    (created : timers.createTimer platform answer = some next) :
    ∃ unused, FirstUnused.search platform.uintPtrValues (insert answer timers.usedIDs)
        ((insert answer timers.usedIDs).card + 1) timers.guaranteedUnusedID = some unused ∧
      next = { timers with
        guaranteedUnusedID := unused
        usedIDs := insert answer timers.usedIDs
        setTimers := if answer = 0 then timers.setTimers else insert answer timers.setTimers
        creations := timers.creations + 1 } := by
  obtain ⟨unused, searched, rfl⟩ := Option.map_eq_some_iff.mp created
  exact ⟨unused, searched, rfl⟩

theorem Consistent.createTimer {platform : Platform} {timers next : CmdTimerWin32} {answer : Nat}
    (consistent : Consistent timers) (created : timers.createTimer platform answer = some next) :
    Consistent next := by
  obtain ⟨unused, _, rfl⟩ := createTimer_eq created
  refine ⟨consistent.mapped, consistent.owner, ?_, ?_⟩
  · intro timer running
    exact Finset.mem_insert_of_mem (consistent.used timer running)
  · intro timer running
    have armed := consistent.armed timer running
    show timers.timerID timer ∈ if answer = 0 then timers.setTimers
      else insert answer timers.setTimers
    split
    · exact armed
    · exact Finset.mem_insert_of_mem armed

theorem timerSetTime_cases {platform : Platform} {timers next : CmdTimerWin32} {timer answer : Nat}
    (taken : timers.timerSetTime platform timer answer = some next) :
    (timers.timerID timer = 0 ∧ ∃ created, timers.createTimer platform answer = some created ∧
      next = { created with
        timerID := Function.update created.timerID timer answer
        idToTimerMap := insertNew created.idToTimerMap answer timer }) ∨
    (timers.timerID timer ≠ 0 ∧
      next = { timers with setTimers := insert (timers.timerID timer) timers.setTimers }) := by
  unfold timerSetTime at taken
  split at taken
  · rename_i stopped
    obtain ⟨created, creates, rfl⟩ := Option.map_eq_some_iff.mp taken
    exact .inl ⟨stopped, created, creates, rfl⟩
  · rename_i running
    exact .inr ⟨running, (Option.some.inj taken).symm⟩

theorem cancel_eq {platform : Platform} {timers next : CmdTimerWin32} {timer : Nat} {killed : Bool}
    (taken : timers.cancel platform timer killed = some next) :
    next = { timers with
      idToTimerMap := timers.idToTimerMap.erase (timers.timerID timer)
      usedIDs := timers.usedIDs.erase (timers.timerID timer)
      timerID := Function.update timers.timerID timer 0
      setTimers := if killed then timers.setTimers.erase (timers.timerID timer)
        else timers.setTimers } := by
  unfold cancel at taken
  split at taken
  · cases taken
  · exact (Option.some.inj taken).symm

theorem timerID_createTimer {platform : Platform} {timers next : CmdTimerWin32} {answer : Nat}
    (created : timers.createTimer platform answer = some next) : next.timerID = timers.timerID := by
  obtain ⟨unused, _, rfl⟩ := createTimer_eq created
  rfl

theorem timerHandler_createTimer {platform : Platform} {timers next : CmdTimerWin32}
    {answer id : Nat} (created : timers.createTimer platform answer = some next) :
    next.timerHandler id = timers.timerHandler id := by
  obtain ⟨unused, _, rfl⟩ := createTimer_eq created
  rfl

theorem timerSetTime_running {platform : Platform} {timers next : CmdTimerWin32}
    {timer answer : Nat} (nonzero : timers.timerID timer = 0 → answer ≠ 0)
    (taken : timers.timerSetTime platform timer answer = some next) : next.timerID timer ≠ 0 := by
  rcases timerSetTime_cases taken with ⟨stopped, created, _, rfl⟩ | ⟨running, rfl⟩
  · simpa using nonzero stopped
  · exact running

theorem timerSetTime_other {platform : Platform} {timers next : CmdTimerWin32}
    {timer answer other : Nat} (taken : timers.timerSetTime platform timer answer = some next)
    (apart : other ≠ timer) : next.timerID other = timers.timerID other := by
  rcases timerSetTime_cases taken with ⟨_, created, creates, rfl⟩ | ⟨_, rfl⟩
  · rw [← timerID_createTimer creates]
    exact Function.update_of_ne apart _ _
  · rfl

theorem cancel_other {platform : Platform} {timers next : CmdTimerWin32} {timer other : Nat}
    {killed : Bool} (taken : timers.cancel platform timer killed = some next)
    (apart : other ≠ timer) : next.timerID other = timers.timerID other := by
  obtain rfl := cancel_eq taken
  exact Function.update_of_ne apart _ _

/-- A timer that the map knows afterwards it knew before, or it was started. -/
theorem timerHandler_timerSetTime {platform : Platform} {timers next : CmdTimerWin32}
    {timer answer id other : Nat} (taken : timers.timerSetTime platform timer answer = some next)
    (found : next.timerHandler id = some other) :
    timers.timerHandler id = some other ∨ other = timer := by
  rcases timerSetTime_cases taken with ⟨_, created, creates, rfl⟩ | ⟨_, rfl⟩
  · obtain ⟨unused, _, rfl⟩ := createTimer_eq creates
    exact (insertNew_cases found).symm.imp_right And.right
  · exact .inl found

/-- What the map knows after a Cancel it knew before, under another id. -/
theorem timerHandler_cancel_ne {platform : Platform} {timers next : CmdTimerWin32}
    {timer id other : Nat} {killed : Bool}
    (taken : timers.cancel platform timer killed = some next)
    (found : next.timerHandler id = some other) :
    timers.timerHandler id = some other ∧ id ≠ timers.timerID timer := by
  obtain rfl := cancel_eq taken
  change (timers.idToTimerMap.erase (timers.timerID timer)).lookup id = some other at found
  by_cases erased : id = timers.timerID timer
  · rw [erased, Finmap.lookup_erase] at found
    cases found
  · rw [Finmap.lookup_erase_ne erased] at found
    exact ⟨found, erased⟩

theorem timerHandler_cancel {platform : Platform} {timers next : CmdTimerWin32} {timer id other : Nat}
    {killed : Bool} (taken : timers.cancel platform timer killed = some next)
    (found : next.timerHandler id = some other) : timers.timerHandler id = some other :=
  (timerHandler_cancel_ne taken found).1

section Tables

variable {timers next : CmdTimerWin32} {timer answer : Nat}

/-- A timer that runs after another has been cancelled ran before, under the same
id, which was not the other's. -/
theorem cancel_survivor {platform : Platform} {killed : Bool} {other : Nat}
    (mapped : ∀ timer, timers.timerID timer ≠ 0 →
      timers.timerHandler (timers.timerID timer) = some timer)
    (taken : timers.cancel platform timer killed = some next) (running : next.timerID other ≠ 0) :
    next.timerID other = timers.timerID other ∧ timers.timerID other ≠ 0 ∧
      timers.timerID other ≠ timers.timerID timer := by
  have different : other ≠ timer := by
    rintro rfl
    obtain rfl := cancel_eq taken
    exact running (Function.update_self ..)
  have kept := cancel_other taken different
  refine ⟨kept, kept ▸ running, fun same => ?_⟩
  have one := mapped other (kept ▸ running)
  have two := mapped timer (same ▸ kept ▸ running)
  rw [same, two] at one
  exact different (Option.some.inj one).symm

theorem mapped_cancel {platform : Platform} {killed : Bool}
    (mapped : ∀ timer, timers.timerID timer ≠ 0 →
      timers.timerHandler (timers.timerID timer) = some timer)
    (taken : timers.cancel platform timer killed = some next) (other : Nat)
    (running : next.timerID other ≠ 0) :
    next.timerHandler (next.timerID other) = some other := by
  obtain ⟨same, still, different⟩ := cancel_survivor mapped taken running
  rw [same]
  obtain rfl := cancel_eq taken
  show (timers.idToTimerMap.erase (timers.timerID timer)).lookup (timers.timerID other) = some other
  rw [Finmap.lookup_erase_ne different]
  exact mapped other still

theorem used_cancel {platform : Platform} {killed : Bool}
    (mapped : ∀ timer, timers.timerID timer ≠ 0 →
      timers.timerHandler (timers.timerID timer) = some timer)
    (used : ∀ timer, timers.timerID timer ≠ 0 → timers.timerID timer ∈ timers.usedIDs)
    (taken : timers.cancel platform timer killed = some next) (other : Nat)
    (running : next.timerID other ≠ 0) : next.timerID other ∈ next.usedIDs := by
  obtain ⟨same, still, different⟩ := cancel_survivor mapped taken running
  rw [same]
  obtain rfl := cancel_eq taken
  exact Finset.mem_erase_of_ne_of_mem different (used other still)

/-- The last step of TimerSetTime leaves the map in order if no running timer and no
entry has the id. -/
theorem mapped_adopt
    (mapped : ∀ timer, timers.timerID timer ≠ 0 →
      timers.timerHandler (timers.timerID timer) = some timer)
    (free : answer ≠ 0 → answer ∉ timers.idToTimerMap ∧ ∀ other, timers.timerID other ≠ answer)
    (other : Nat) (running : Function.update timers.timerID timer answer other ≠ 0) :
    (insertNew timers.idToTimerMap answer timer).lookup
      (Function.update timers.timerID timer answer other) = some other := by
  rw [lookup_insertNew]
  by_cases same : other = timer
  · subst same
    rw [Function.update_self] at running ⊢
    rw [if_pos ⟨rfl, (free running).1⟩]
  · rw [Function.update_of_ne same] at running ⊢
    rw [if_neg]
    · exact mapped other running
    · rintro ⟨new, _⟩
      exact (free (new ▸ running)).2 other new

/-- What a timer that starts and the running ones have in common the ids have. -/
theorem adopt_mem {ids : Finset Nat} (old : ∀ other, timers.timerID other ≠ 0 →
      timers.timerID other ∈ ids) (new : answer ≠ 0 → answer ∈ ids)
    (other : Nat) (running : Function.update timers.timerID timer answer other ≠ 0) :
    Function.update timers.timerID timer answer other ∈ ids := by
  by_cases same : other = timer
  · subst same
    rw [Function.update_self] at running ⊢
    exact new running
  · rw [Function.update_of_ne same] at running ⊢
    exact old other running

end Tables

theorem Consistent.timerSetTime {platform : Platform} {timers next : CmdTimerWin32}
    {timer answer : Nat} (consistent : Consistent timers)
    (fresh : timers.timerID timer = 0 → Fresh timers answer)
    (taken : timers.timerSetTime platform timer answer = some next) : Consistent next := by
  rcases timerSetTime_cases taken with ⟨stopped, created, creates, rfl⟩ | ⟨running, rfl⟩
  · have kept := consistent.createTimer creates
    have free := fresh stopped
    obtain ⟨unused, _, rfl⟩ := createTimer_eq creates
    have absent : answer ∉ timers.idToTimerMap := by
      intro present
      obtain ⟨other, found⟩ := Finmap.mem_iff.mp present
      exact free.free other (consistent.owner answer other found).1
    refine ⟨?_, ?_, ?_, ?_⟩
    · exact mapped_adopt consistent.mapped fun _ => ⟨absent, free.free⟩
    · intro id other found
      show Function.update timers.timerID timer answer other = id ∧ id ≠ 0
      rcases insertNew_cases found with ⟨rfl, rfl⟩ | before
      · exact ⟨Function.update_self .., free.nonzero⟩
      · obtain ⟨same, nonzero⟩ := consistent.owner id other before
        have apart : other ≠ timer := by
          rintro rfl
          exact nonzero (same.symm.trans stopped)
        rw [Function.update_of_ne apart]
        exact ⟨same, nonzero⟩
    · exact adopt_mem kept.used fun _ => Finset.mem_insert_self ..
    · refine adopt_mem kept.armed fun _ => ?_
      simp [free.nonzero]
  · refine ⟨consistent.mapped, consistent.owner, consistent.used, ?_⟩
    intro other running
    exact Finset.mem_insert_of_mem (consistent.armed other running)

theorem Consistent.cancel {platform : Platform} {timers next : CmdTimerWin32} {timer : Nat}
    {killed : Bool} (consistent : Consistent timers)
    (taken : timers.cancel platform timer killed = some next) : Consistent next := by
  refine ⟨mapped_cancel consistent.mapped taken, ?_,
    used_cancel consistent.mapped consistent.used taken, ?_⟩
  · intro id other found
    obtain ⟨before, kept⟩ := timerHandler_cancel_ne taken found
    obtain ⟨same, nonzero⟩ := consistent.owner id other before
    have different : other ≠ timer := by
      rintro rfl
      exact kept same.symm
    exact ⟨(cancel_other taken different).trans same, nonzero⟩
  · intro other running
    obtain ⟨same, still, different⟩ := cancel_survivor consistent.mapped taken running
    have armed := consistent.armed other still
    rw [same]
    obtain rfl := cancel_eq taken
    show timers.timerID other ∈
      if killed then timers.setTimers.erase (timers.timerID timer) else timers.setTimers
    split
    · exact Finset.mem_erase_of_ne_of_mem different armed
    · exact armed

/-- What holds of the tables whatever SetTimer answers: the map gives an id to the
timer that has it, and the O/S sets no timer under 0. -/
structure Known (timers : CmdTimerWin32) : Prop where
  owner : ∀ id timer, id ≠ 0 → timers.timerHandler id = some timer → timers.timerID timer = id
  unset : 0 ∉ timers.setTimers

theorem known_initial : Known initial :=
  ⟨fun _ _ _ found => (Option.some_ne_none _ found.symm).elim, Finset.notMem_empty 0⟩

theorem Known.createTimer {platform : Platform} {timers next : CmdTimerWin32} {answer : Nat}
    (known : Known timers) (created : timers.createTimer platform answer = some next) :
    Known next := by
  obtain ⟨unused, _, rfl⟩ := createTimer_eq created
  refine ⟨known.owner, ?_⟩
  show 0 ∉ if answer = 0 then timers.setTimers else insert answer timers.setTimers
  split
  · exact known.unset
  · rename_i nonzero
    simp [known.unset, Ne.symm nonzero]

theorem Known.timerSetTime {platform : Platform} {timers next : CmdTimerWin32}
    {timer answer : Nat} (known : Known timers)
    (taken : timers.timerSetTime platform timer answer = some next) : Known next := by
  rcases timerSetTime_cases taken with ⟨stopped, created, creates, rfl⟩ | ⟨running, rfl⟩
  · refine ⟨?_, (known.createTimer creates).unset⟩
    obtain ⟨unused, _, rfl⟩ := createTimer_eq creates
    intro id other nonzero found
    show Function.update timers.timerID timer answer other = id
    rcases insertNew_cases found with ⟨rfl, rfl⟩ | before
    · exact Function.update_self ..
    · have same := known.owner id other nonzero before
      have apart : other ≠ timer := by
        rintro rfl
        exact nonzero (same.symm.trans stopped)
      rwa [Function.update_of_ne apart]
  · refine ⟨known.owner, ?_⟩
    show 0 ∉ insert (timers.timerID timer) timers.setTimers
    simp [known.unset, Ne.symm running]

theorem Known.cancel {platform : Platform} {timers next : CmdTimerWin32} {timer : Nat}
    {killed : Bool} (known : Known timers)
    (taken : timers.cancel platform timer killed = some next) : Known next := by
  constructor
  · intro id other nonzero found
    obtain ⟨before, kept⟩ := timerHandler_cancel_ne taken found
    have same := known.owner id other nonzero before
    have different : other ≠ timer := by
      rintro rfl
      exact kept same.symm
    exact (cancel_other taken different).trans same
  · obtain rfl := cancel_eq taken
    show 0 ∉ if killed then timers.setTimers.erase (timers.timerID timer) else timers.setTimers
    split
    · exact fun member => known.unset (Finset.mem_of_mem_erase member)
    · exact known.unset

end CmdTimerWin32

end FrcRobot
