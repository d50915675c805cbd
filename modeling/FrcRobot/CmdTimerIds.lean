import FrcRobot.CmdTimerWrappers

set_option autoImplicit false

/- The ids of running timers, and the counter that SetTimer is asked with. -/
namespace FrcRobot.CmdTimerWrappers

open Interleaving CmdTimerWin32

/-- SetTimer answers with the id it was asked for, or with one that no running
timer has. -/
def AsksOrFresh (parties : Parties) (action : Action) : Prop :=
  ∀ answer, answered parties action = some answer →
    answer = parties.timers.guaranteedUnusedID ∨ Fresh parties.timers answer

/-- The tables keep the ids of running timers apart, and the next one to ask for. -/
structure IdsApart (timers : CmdTimerWin32) : Prop where
  unused : timers.guaranteedUnusedID ∉ timers.usedIDs
  used : ∀ timer, timers.timerID timer ≠ 0 → timers.timerID timer ∈ timers.usedIDs
  mapped : ∀ timer, timers.timerID timer ≠ 0 →
    timers.timerHandler (timers.timerID timer) = some timer
  distinct : ∀ first second, timers.timerID first ≠ 0 → first ≠ second →
    timers.timerID first ≠ timers.timerID second

/-- The same, with what the map says of a timer that it knows. -/
structure Registered (timers : CmdTimerWin32) : Prop where
  known : Known timers
  unused : timers.guaranteedUnusedID ∉ timers.usedIDs
  used : ∀ timer, timers.timerID timer ≠ 0 → timers.timerID timer ∈ timers.usedIDs
  mapped : ∀ timer, timers.timerID timer ≠ 0 →
    timers.timerHandler (timers.timerID timer) = some timer

theorem registered_initial : Registered CmdTimerWin32.initial := by
  refine ⟨known_initial, ?_, ?_, ?_⟩
  · exact Finset.notMem_singleton.mpr Nat.one_ne_zero
  · exact fun _ running => absurd rfl running
  · exact fun _ running => absurd rfl running

theorem Registered.idsApart {timers : CmdTimerWin32} (registered : Registered timers) :
    IdsApart timers := by
  refine ⟨registered.unused, registered.used, registered.mapped, ?_⟩
  intro first second running different same
  have one := registered.mapped first running
  have other := registered.mapped second (same ▸ running)
  rw [same, other] at one
  exact different (Option.some.inj one).symm

/-- Asking for the unused id is as good as any answer that no running timer has. -/
theorem Registered.free {timers : CmdTimerWin32} (registered : Registered timers) {answer : Nat}
    (answers : answer = timers.guaranteedUnusedID ∨ Fresh timers answer) (nonzero : answer ≠ 0) :
    Fresh timers answer := by
  rcases answers with rfl | fresh
  · refine ⟨nonzero, fun timer same => registered.unused ?_⟩
    have running : timers.timerID timer ≠ 0 := same ▸ nonzero
    exact same ▸ registered.used timer running
  · exact fresh

theorem Registered.createTimer {platform : Platform} {timers next : CmdTimerWin32} {answer : Nat}
    (registered : Registered timers)
    (created : timers.createTimer platform answer = some next) : Registered next := by
  have known := registered.known.createTimer created
  obtain ⟨unused, searched, rfl⟩ := createTimer_eq created
  refine ⟨known, FirstUnused.search_notMem searched, ?_, registered.mapped⟩
  intro timer running
  exact Finset.mem_insert_of_mem (registered.used timer running)

theorem Registered.timerSetTime {platform : Platform} {timers next : CmdTimerWin32}
    {timer answer : Nat} (registered : Registered timers)
    (answers : timers.timerID timer = 0 →
      answer = timers.guaranteedUnusedID ∨ Fresh timers answer)
    (taken : timers.timerSetTime platform timer answer = some next) : Registered next := by
  have known := registered.known.timerSetTime taken
  rcases timerSetTime_cases taken with ⟨stopped, created, creates, rfl⟩ | ⟨running, rfl⟩
  · have kept := registered.createTimer creates
    have free : answer ≠ 0 →
        answer ∉ timers.idToTimerMap ∧ ∀ other, timers.timerID other ≠ answer := by
      intro nonzero
      have fresh := registered.free (answers stopped) nonzero
      refine ⟨fun present => ?_, fresh.free⟩
      obtain ⟨holder, found⟩ := Finmap.mem_iff.mp present
      exact fresh.free holder (registered.known.owner answer holder nonzero found)
    obtain ⟨unused, _, rfl⟩ := createTimer_eq creates
    refine ⟨known, kept.unused, ?_, mapped_adopt registered.mapped free⟩
    exact adopt_mem kept.used fun _ => Finset.mem_insert_self ..
  · exact ⟨known, registered.unused, registered.used, registered.mapped⟩

theorem Registered.cancel {platform : Platform} {timers next : CmdTimerWin32} {timer : Nat}
    {killed : Bool} (registered : Registered timers)
    (taken : timers.cancel platform timer killed = some next) : Registered next := by
  refine ⟨registered.known.cancel taken, ?_,
    used_cancel registered.mapped registered.used taken, mapped_cancel registered.mapped taken⟩
  obtain rfl := cancel_eq taken
  exact fun member => registered.unused (Finset.mem_of_mem_erase member)

theorem registered_step {platform : Platform} {parties next : Parties} {action : Action}
    (registered : Registered parties.timers) (answers : AsksOrFresh parties action)
    (taken : step platform parties action = some next) : Registered next.timers := by
  cases step_timers taken with
  | same timers _ => exact timers ▸ registered
  | create answer asked timers _ => exact registered.createTimer timers
  | start timer answer asked timers _ =>
      exact registered.timerSetTime (fun stopped => answers answer (asked stopped)) timers
  | cancel timer killed timers _ => exact registered.cancel timers

/-- What a step does to the counter and the ids in use: it creates a timer, or it
leaves the counter alone and adds no id. -/
theorem step_counter {platform : Platform} {parties next : Parties} {action : Action}
    (taken : step platform parties action = some next) :
    (∃ answer created, parties.timers.createTimer platform answer = some created ∧
      next.timers.guaranteedUnusedID = created.guaranteedUnusedID ∧
      next.timers.usedIDs = created.usedIDs ∧ next.timers.creations = created.creations) ∨
    next.timers.guaranteedUnusedID = parties.timers.guaranteedUnusedID ∧
      next.timers.usedIDs ⊆ parties.timers.usedIDs ∧
      next.timers.creations = parties.timers.creations := by
  cases step_timers taken with
  | same timers _ =>
      rw [timers]
      exact .inr ⟨rfl, subset_rfl, rfl⟩
  | create answer asked timers _ => exact .inl ⟨answer, _, timers, rfl, rfl, rfl⟩
  | start timer answer asked timers _ =>
      rcases timerSetTime_cases timers with ⟨_, created, creates, same⟩ | ⟨_, same⟩
      · rw [same]
        exact .inl ⟨answer, created, creates, rfl, rfl, rfl⟩
      · rw [same]
        exact .inr ⟨rfl, subset_rfl, rfl⟩
  | cancel timer killed timers _ =>
      rw [cancel_eq timers]
      exact .inr ⟨rfl, Finset.erase_subset .., rfl⟩

/-- The counter stays among the values of its type. -/
theorem step_within {platform : Platform} {parties next : Parties} {action : Action}
    (within : parties.timers.guaranteedUnusedID < platform.uintPtrValues)
    (taken : step platform parties action = some next) :
    next.timers.guaranteedUnusedID < platform.uintPtrValues := by
  rcases step_counter taken with ⟨answer, created, creates, same, _⟩ | ⟨same, _⟩
  · obtain ⟨unused, searched, rfl⟩ := createTimer_eq creates
    rw [same]
    exact FirstUnused.search_lt within searched
  · rw [same]
    exact within

/-- Every id in use above the counter was once answered to a request, and so was
every one that it has passed. -/
structure Counted (timers : CmdTimerWin32) : Prop where
  unused : timers.guaranteedUnusedID ∉ timers.usedIDs
  few : timers.guaranteedUnusedID +
    (timers.usedIDs.filter (timers.guaranteedUnusedID < ·)).card ≤ timers.creations + 1

theorem Counted.createTimer {platform : Platform} {timers next : CmdTimerWin32} {answer : Nat}
    (counted : Counted timers) (room : next.creations + 1 < platform.uintPtrValues)
    (created : timers.createTimer platform answer = some next) :
    Counted next ∧ timers.guaranteedUnusedID ≤ next.guaranteedUnusedID := by
  obtain ⟨unused, searched, rfl⟩ := createTimer_eq created
  change timers.creations + 1 + 1 < platform.uintPtrValues at room
  have few := counted.few
  -- The counter is not in use, and one id more is than before.
  have more : ((insert answer timers.usedIDs).filter (timers.guaranteedUnusedID ≤ ·)).card ≤
      (timers.usedIDs.filter (timers.guaranteedUnusedID < ·)).card + 1 := by
    refine (Finset.card_le_card ?_).trans (Finset.card_insert_le answer _)
    intro id member
    obtain ⟨inUse, above⟩ := Finset.mem_filter.mp member
    rcases Finset.mem_insert.mp inUse with rfl | before
    · exact Finset.mem_insert_self ..
    · have different : timers.guaranteedUnusedID ≠ id := by
        rintro rfl
        exact counted.unused before
      exact Finset.mem_insert_of_mem (Finset.mem_filter.mpr ⟨before, lt_of_le_of_ne above different⟩)
  have short : timers.guaranteedUnusedID +
      ((insert answer timers.usedIDs).filter (timers.guaranteedUnusedID ≤ ·)).card <
        platform.uintPtrValues := by omega
  obtain ⟨stop, found, stops⟩ := FirstUnused.search_enough short
  rw [found] at searched
  obtain rfl := Option.some.inj searched
  have pass := stops.pass
  refine ⟨⟨stops.unused, ?_⟩, stops.ordered⟩
  show stop + ((insert answer timers.usedIDs).filter (stop < ·)).card ≤ timers.creations + 1 + 1
  omega

theorem Counted.fewer {timers next : CmdTimerWin32} (counted : Counted timers)
    (same : next.guaranteedUnusedID = timers.guaranteedUnusedID)
    (fewer : next.usedIDs ⊆ timers.usedIDs) (creations : next.creations = timers.creations) :
    Counted next := by
  refine ⟨fun member => counted.unused (fewer (same ▸ member)), ?_⟩
  rw [same, creations]
  refine le_trans (Nat.add_le_add_left (Finset.card_le_card ?_) _) counted.few
  exact Finset.filter_subset_filter _ fewer

theorem creations_le {platform : Platform} {parties next : Parties} {action : Action}
    (taken : step platform parties action = some next) :
    parties.timers.creations ≤ next.timers.creations := by
  rcases step_counter taken with ⟨answer, created, creates, _, _, same⟩ | ⟨_, _, same⟩
  · obtain ⟨unused, _, rfl⟩ := createTimer_eq creates
    rw [same]
    exact Nat.le_succ _
  · exact same.ge

theorem creations_le_run {platform : Platform} {parties last : Parties} {actions : List Action}
    (taken : run (step platform) parties actions = some last) :
    parties.timers.creations ≤ last.timers.creations :=
  run_invariant (fun state => parties.timers.creations ≤ state.timers.creations)
    (fun _ _ _ before first => before.trans (creations_le first)) le_rfl taken

theorem counted_step {platform : Platform} {parties next : Parties} {action : Action}
    (counted : Counted parties.timers)
    (room : next.timers.creations + 1 < platform.uintPtrValues)
    (taken : step platform parties action = some next) :
    Counted next.timers ∧ parties.timers.guaranteedUnusedID ≤ next.timers.guaranteedUnusedID := by
  rcases step_counter taken with ⟨answer, created, creates, unused, used, total⟩ |
    ⟨unused, fewer, total⟩
  · rw [total] at room
    obtain ⟨⟨free, few⟩, up⟩ := counted.createTimer room creates
    exact ⟨⟨by rwa [unused, used], by rwa [unused, used, total]⟩, by rwa [unused]⟩
  · exact ⟨counted.fewer unused fewer total, unused.ge⟩

theorem counted_run {platform : Platform} {parties last : Parties} {actions : List Action}
    (counted : Counted parties.timers)
    (room : last.timers.creations + 1 < platform.uintPtrValues)
    (taken : run (step platform) parties actions = some last) :
    Counted last.timers ∧ parties.timers.guaranteedUnusedID ≤ last.timers.guaranteedUnusedID := by
  induction actions generalizing parties with
  | nil =>
      obtain rfl := Option.some.inj taken
      exact ⟨counted, le_rfl⟩
  | cons action rest ih =>
      obtain ⟨next, first, later⟩ := Option.bind_eq_some_iff.mp taken
      have total := creations_le_run later
      obtain ⟨between, up⟩ := counted_step counted (by omega) first
      obtain ⟨final, further⟩ := ih between later
      exact ⟨final, up.trans further⟩

theorem counted_initial : Counted CmdTimerWin32.initial :=
  ⟨registered_initial.unused, by decide⟩

/-- Whatever SetTimer answers of the two, running timers have ids of their own,
known to be used and mapped to them, and the counter's is not in use. The loop
that looks for it ends as long as not every id is in use, and it does not come
round as long as fewer timers have been created than there are ids to ask for. -/
theorem ids_apart (platform : Platform) :
    (∀ actions last, Along (step platform) AsksOrFresh Parties.initial actions →
      run (step platform) Parties.initial actions = some last → IdsApart last.timers) ∧
    (∀ actions last answer, run (step platform) Parties.initial actions = some last →
      (insert answer last.timers.usedIDs).card < platform.uintPtrValues →
      ∃ created, last.timers.createTimer platform answer = some created) ∧
    ∀ before middle after last, run (step platform) Parties.initial before = some middle →
      run (step platform) middle after = some last →
      last.timers.creations + 1 < platform.uintPtrValues →
      middle.timers.guaranteedUnusedID ≤ last.timers.guaranteedUnusedID := by
  refine ⟨?_, ?_, ?_⟩
  · intro actions last answers taken
    have registered : Registered last.timers :=
      run_invariant_along (fun parties => Registered parties.timers)
        (fun _ _ _ before permitted first => registered_step before permitted first)
        registered_initial answers taken
    exact registered.idsApart
  · intro actions last answer taken left
    have some_id : 0 < (insert answer last.timers.usedIDs).card :=
      Finset.card_pos.mpr (Finset.insert_nonempty ..)
    have initially : Parties.initial.timers.guaranteedUnusedID < platform.uintPtrValues := by
      show 1 < platform.uintPtrValues
      omega
    have within : last.timers.guaranteedUnusedID < platform.uintPtrValues :=
      run_invariant (fun parties => parties.timers.guaranteedUnusedID < platform.uintPtrValues)
        (fun _ _ _ before first => step_within before first) initially taken
    obtain ⟨unused, searched⟩ := FirstUnused.exists_search within left
    exact ⟨_, Option.map_eq_some_iff.mpr ⟨unused, searched, rfl⟩⟩
  · intro before middle after last first later room
    have total := creations_le_run later
    have counted := (counted_run counted_initial (by omega) first).1
    exact (counted_run counted room later).2

theorem ids_apart_restarted :
    ∃ middle last,
      run (step .unitTests) Parties.initial [.construct (some 0), .startRelative 0 1000 1] =
        some middle ∧
      run (step .unitTests) middle [.cancel 0 false, .startRelative 0 1000 2] = some last ∧
      IdsApart middle.timers ∧
      (∃ created, middle.timers.createTimer .unitTests 7 = some created) ∧
      middle.timers.guaranteedUnusedID ≤ last.timers.guaranteedUnusedID := by
  refine ⟨_, _, rfl, rfl, ?_, ?_, ?_⟩
  · refine (ids_apart .unitTests).1 [.construct (some 0), .startRelative 0 1000 1] _ ?_ rfl
    refine ⟨fun answer asked => (Option.some_ne_none _ asked.symm).elim, ?_⟩
    intro constructed taken
    cases taken
    refine ⟨?_, fun _ _ => trivial⟩
    intro answer asked
    cases asked
    exact .inl rfl
  · exact (ids_apart .unitTests).2.1 [.construct (some 0), .startRelative 0 1000 1] _ 7 rfl
      (by decide +kernel)
  · exact (ids_apart .unitTests).2.2 [.construct (some 0), .startRelative 0 1000 1] _
      [.cancel 0 false, .startRelative 0 1000 2] _ rfl rfl (by decide +kernel)

/-- A start that gets the id asked for, and a search that ends. -/
theorem exists_start {platform : Platform} {parties : Parties} {wrapper timer unused : Nat}
    (points : parties.pImpl wrapper = some timer)
    (command : (parties.cmdToInvoke timer).isSome = true)
    (stopped : parties.timers.timerID timer = 0)
    (searched : FirstUnused.search platform.uintPtrValues
      (insert parties.timers.guaranteedUnusedID parties.timers.usedIDs)
      ((insert parties.timers.guaranteedUnusedID parties.timers.usedIDs).card + 1)
      parties.timers.guaranteedUnusedID = some unused) :
    ∃ next, step platform parties
        (.startRelative wrapper 0 parties.timers.guaranteedUnusedID) = some next ∧
      next.wrappers = parties.wrappers ∧ next.allocated = parties.allocated ∧
      next.cmdToInvoke = parties.cmdToInvoke ∧
      next.timers.guaranteedUnusedID = unused ∧
      next.timers.usedIDs = insert parties.timers.guaranteedUnusedID parties.timers.usedIDs ∧
      next.timers.timerID =
        Function.update parties.timers.timerID timer parties.timers.guaranteedUnusedID ∧
      next.timers.idToTimerMap =
        insertNew parties.timers.idToTimerMap parties.timers.guaranteedUnusedID timer := by
  have startable : Startable 0 (parties.cmdToInvoke timer) := ⟨le_rfl, command⟩
  let asked := parties.timers.guaranteedUnusedID
  let created : CmdTimerWin32 := { parties.timers with
    guaranteedUnusedID := unused
    usedIDs := insert asked parties.timers.usedIDs
    setTimers := if asked = 0 then parties.timers.setTimers
      else insert asked parties.timers.setTimers
    creations := parties.timers.creations + 1 }
  have creates : parties.timers.createTimer platform asked = some created := by
    simp only [createTimer, asked, searched, Option.map_some, created]
  let timers : CmdTimerWin32 := { created with
    timerID := Function.update created.timerID timer asked
    idToTimerMap := insertNew created.idToTimerMap asked timer }
  have set : parties.timers.timerSetTime platform timer asked = some timers := by
    simp only [timerSetTime, stopped, ↓reduceIte, creates, Option.map_some, timers]
  refine ⟨{ parties with
    timers := timers
    starts := Function.update parties.starts timer (parties.starts timer + 1)
    ready := Function.update parties.ready timer true
    started := Function.update parties.started timer true },
    ?_, rfl, rfl, rfl, rfl, rfl, rfl, rfl⟩
  simp only [step, points, Option.bind_some, Parties.startRelative, startable, ↓reduceIte]
  rw [set, Option.map_some]

theorem asksOrFresh_start {parties : Parties} {wrapper timer : Nat}
    (points : parties.pImpl wrapper = some timer) :
    AsksOrFresh parties (.startRelative wrapper 0 parties.timers.guaranteedUnusedID) := by
  intro answer asks
  simp only [answered, points, Option.bind_some, Parties.newTimer] at asks
  split at asks
  · exact .inl (Option.some.inj asks).symm
  · cases asks

theorem asksOrFresh_of_none {parties : Parties} {action : Action}
    (silent : answered parties action = none) : AsksOrFresh parties action := by
  intro answer asks
  rw [silent] at asks
  cases asks

/-- One timer that was started and cancelled again and again, and got the id asked
for each time. -/
structure Churned (parties : Parties) (asked : Nat) : Prop where
  pImpl : parties.pImpl 0 = some 0
  command : (parties.cmdToInvoke 0).isSome = true
  stopped : parties.timers.timerID 0 = 0
  asks : parties.timers.guaranteedUnusedID = asked
  used : parties.timers.usedIDs = {0}
  unknown : parties.timers.idToTimerMap = ∅

theorem search_asked {values asked : Nat} (below : asked + 1 < values) :
    FirstUnused.search values {asked, 0} 3 asked = some (asked + 1) := by
  have next : (asked + 1) % values = asked + 1 := Nat.mod_eq_of_lt below
  simp [FirstUnused.search, next]

/-- What the next start does, whatever the search finds. -/
theorem Churned.start {platform : Platform} {parties : Parties} {asked unused : Nat}
    (churned : Churned parties asked) (nonzero : asked ≠ 0)
    (searched : FirstUnused.search platform.uintPtrValues {asked, 0} 3 asked = some unused) :
    ∃ next, step platform parties (.startRelative 0 0 asked) = some next ∧
      next.pImpl 0 = some 0 ∧ (next.cmdToInvoke 0).isSome = true ∧
      next.timers.timerID 0 = asked ∧ next.timers.guaranteedUnusedID = unused ∧
      next.timers.usedIDs = {asked, 0} ∧
      next.timers.idToTimerMap = insertNew ∅ asked 0 := by
  obtain ⟨pImpl, command, stopped, rfl, used, unknown⟩ := churned
  have two : ({parties.timers.guaranteedUnusedID, 0} : Finset Nat).card = 2 :=
    Finset.card_pair nonzero
  have searches : FirstUnused.search platform.uintPtrValues
      (insert parties.timers.guaranteedUnusedID parties.timers.usedIDs)
      ((insert parties.timers.guaranteedUnusedID parties.timers.usedIDs).card + 1)
      parties.timers.guaranteedUnusedID = some unused := by rwa [used, two]
  obtain ⟨next, taken, wrappers, _, commands, counter, ids, timerID, map⟩ :=
    exists_start pImpl command stopped searches
  refine ⟨next, taken, ?_, ?_, ?_, counter, ?_, ?_⟩
  · rwa [Parties.pImpl, wrappers]
  · rwa [commands]
  · rw [timerID, Function.update_self]
  · rw [ids, used]
  · rw [map, unknown]

theorem Churned.round {parties : Parties} {asked : Nat} (churned : Churned parties asked)
    (nonzero : asked ≠ 0) (below : asked + 1 < 2 ^ 32) :
    ∃ started next, step .unitTests parties (.startRelative 0 0 asked) = some started ∧
      step .unitTests started (.cancel 0 true) = some next ∧ Churned next (asked + 1) := by
  have searched : FirstUnused.search Platform.unitTests.uintPtrValues {asked, 0} 3 asked =
      some (asked + 1) := search_asked below
  obtain ⟨started, taken, pImpl, command, running, unused, used, known⟩ :=
    churned.start nonzero searched
  have here : some 0 ∈ started.wrappers := mem_wrappers pImpl
  refine ⟨started, { started with
    timers := { started.timers with
      idToTimerMap := started.timers.idToTimerMap.erase (started.timers.timerID 0)
      usedIDs := started.timers.usedIDs.erase (started.timers.timerID 0)
      timerID := Function.update started.timers.timerID 0 0
      setTimers := started.timers.setTimers.erase (started.timers.timerID 0) }
    started := Function.update started.started 0 false }, taken, ?_, ?_⟩
  · have mapped : started.timers.timerHandler (started.timers.timerID 0) = some 0 := by
      rw [timerHandler, running, known, lookup_insertNew, if_pos ⟨rfl, Finmap.notMem_empty⟩]
    simp only [step, pImpl, Option.bind_some, Parties.cancel, cancel, mapped, Parties.Spares,
      Parties.Owned, here, true_or, ↓reduceIte]
    rfl
  · refine ⟨pImpl, command, rfl, unused, ?_, ?_⟩
    · show started.timers.usedIDs.erase (started.timers.timerID 0) = {0}
      rw [used, running, Finset.erase_insert (Finset.notMem_singleton.mpr nonzero)]
    · show started.timers.idToTimerMap.erase (started.timers.timerID 0) = ∅
      rw [known, running]
      refine Finmap.ext_lookup fun id => ?_
      by_cases same : id = asked
      · rw [same, Finmap.lookup_erase, Finmap.lookup_empty]
      · rw [Finmap.lookup_erase_ne same, lookup_insertNew, if_neg (fun new => same new.1)]

theorem Churned.canReach {parties : Parties} {count asked : Nat} (churned : Churned parties asked)
    (nonzero : asked ≠ 0) (below : asked + count < 2 ^ 32) :
    CanReach (step .unitTests) AsksOrFresh (fun last => Churned last (asked + count)) parties := by
  induction count generalizing parties asked with
  | zero => exact .here churned
  | succ count ih =>
      obtain ⟨started, next, starts, cancels, again⟩ := churned.round nonzero (by omega)
      have rest := ih again (Nat.succ_ne_zero asked) (by omega)
      rw [Nat.add_right_comm asked 1 count] at rest
      have permitted := asksOrFresh_start churned.pImpl
      rw [churned.asks] at permitted
      exact .cons permitted starts (.cons (asksOrFresh_of_none rfl) cancels rest)

/-- As many timers as there are ids from 1 on, each with the id asked for. -/
structure Filled (parties : Parties) (count : Nat) : Prop where
  wrappers : parties.wrappers.length = count
  allocated : parties.allocated = count
  stopped : ∀ timer, count ≤ timer → parties.timers.timerID timer = 0
  asks : parties.timers.guaranteedUnusedID = count + 1
  used : parties.timers.usedIDs = Finset.range (count + 1)

/-- A wrapper for one timer more. -/
theorem Filled.construct {parties : Parties} {count : Nat} (filled : Filled parties count) :
    ∃ next, step .unitTests parties (.construct (some 0)) = some next ∧
      next.wrappers.length = count + 1 ∧ next.allocated = count + 1 ∧
      next.timers = parties.timers ∧ next.pImpl count = some count ∧
      (next.cmdToInvoke count).isSome = true := by
  refine ⟨_, rfl, ?_, ?_, rfl, ?_, ?_⟩
  · simp [filled.wrappers]
  · simp [filled.allocated]
  · simp [Parties.pImpl, ← filled.wrappers, filled.allocated]
  · simp [filled.allocated]

theorem Filled.round {parties : Parties} {count : Nat} (filled : Filled parties count)
    (below : count + 2 < 2 ^ 32) :
    ∃ made next, step .unitTests parties (.construct (some 0)) = some made ∧
      AsksOrFresh made (.startRelative count 0 (count + 1)) ∧
      step .unitTests made (.startRelative count 0 (count + 1)) = some next ∧
      Filled next (count + 1) := by
  obtain ⟨made, constructs, wrappers, allocated, timers, points, command⟩ := filled.construct
  have asks : made.timers.guaranteedUnusedID = count + 1 := timers ▸ filled.asks
  have used : made.timers.usedIDs = Finset.range (count + 1) := timers ▸ filled.used
  have full : insert (count + 1) (Finset.range (count + 1)) = Finset.range (count + 2) :=
    Finset.range_add_one.symm
  have stops : FirstUnused.Stop (Finset.range (count + 2)) (count + 1) (count + 2) := by
    refine ⟨Nat.le_succ _, fun n _ late => Finset.mem_range.mpr late, ?_⟩
    exact Finset.notMem_range_self
  have searched : FirstUnused.search Platform.unitTests.uintPtrValues
      (insert made.timers.guaranteedUnusedID made.timers.usedIDs)
      ((insert made.timers.guaranteedUnusedID made.timers.usedIDs).card + 1)
      made.timers.guaranteedUnusedID = some (count + 2) := by
    rw [asks, used, full, Finset.card_range]
    exact FirstUnused.search_eq stops below (by omega)
  have stopped : made.timers.timerID count = 0 := timers ▸ filled.stopped count le_rfl
  obtain ⟨next, taken, sameWrappers, sameAllocated, _, counter, ids, timerID, _⟩ :=
    exists_start points command stopped searched
  rw [asks] at taken ids timerID
  have permitted := asksOrFresh_start points
  rw [asks] at permitted
  refine ⟨made, next, constructs, permitted, taken, ?_, ?_, ?_, counter, ?_⟩
  · rw [sameWrappers, wrappers]
  · rw [sameAllocated, allocated]
  · intro timer late
    rw [timerID, Function.update_of_ne (by omega), timers]
    exact filled.stopped timer (by omega)
  · rw [ids, used, full]

theorem Filled.canReach {parties : Parties} {more count : Nat} (filled : Filled parties count)
    (below : count + more + 1 < 2 ^ 32) :
    CanReach (step .unitTests) AsksOrFresh (fun last => Filled last (count + more)) parties := by
  induction more generalizing parties count with
  | zero => exact .here filled
  | succ more ih =>
      obtain ⟨made, next, constructs, permitted, starts, again⟩ := filled.round (by omega)
      have rest := ih again (by omega)
      rw [Nat.add_right_comm count 1 more] at rest
      exact .cons (asksOrFresh_of_none rfl) constructs (.cons permitted starts rest)

/-- After the largest id of all the counter comes round to 1; and a timer that gets
the last id there is leaves none to count to. -/
theorem not_counter_advances :
    CanReach (step .unitTests) AsksOrFresh (fun middle => ∃ last,
      AsksOrFresh middle (.startRelative 0 0 (2 ^ 32 - 1)) ∧
      step .unitTests middle (.startRelative 0 0 (2 ^ 32 - 1)) = some last ∧
      middle.timers.guaranteedUnusedID = 2 ^ 32 - 1 ∧ last.timers.guaranteedUnusedID = 1)
      Parties.initial ∧
    CanReach (step .unitTests) AsksOrFresh (fun last =>
      last.timers.guaranteedUnusedID = 2 ^ 32 - 1 ∧
      last.timers.createTimer .unitTests (2 ^ 32 - 1) = none) Parties.initial := by
  constructor
  · have constructed : ∃ parties, step .unitTests Parties.initial (.construct (some 0)) =
        some parties ∧ Churned parties 1 := ⟨_, rfl, rfl, rfl, rfl, rfl, rfl, rfl⟩
    obtain ⟨parties, taken, churned⟩ := constructed
    have around : CanReach (step .unitTests) AsksOrFresh
        (fun last => Churned last (1 + (2 ^ 32 - 2))) parties :=
      churned.canReach Nat.one_ne_zero (by omega)
    obtain ⟨actions, middle, along, ran, last⟩ := around
    have searched : FirstUnused.search Platform.unitTests.uintPtrValues {2 ^ 32 - 1, 0} 3
        (2 ^ 32 - 1) = some 1 := by decide +kernel
    obtain ⟨next, starts, _, _, _, unused, _, _⟩ := last.start (by omega) searched
    have permitted := asksOrFresh_start last.pImpl
    rw [last.asks] at permitted
    refine .cons (asksOrFresh_of_none rfl) taken ⟨actions, middle, along, ran, next, permitted,
      starts, last.asks, unused⟩
  · have empty : Filled Parties.initial 0 := ⟨rfl, rfl, fun _ _ => rfl, rfl, rfl⟩
    have full : CanReach (step .unitTests) AsksOrFresh
        (fun last => Filled last (0 + (2 ^ 32 - 2))) Parties.initial :=
      empty.canReach (by omega)
    obtain ⟨actions, last, along, ran, filled⟩ := full
    refine ⟨actions, last, along, ran, filled.asks, ?_⟩
    refine Option.map_eq_none_iff.mpr (Option.eq_none_iff_forall_ne_some.mpr ?_)
    intro found searched
    have within : found < 2 ^ 32 :=
      FirstUnused.search_lt (by rw [filled.asks]; omega) searched
    apply FirstUnused.search_notMem searched
    rw [filled.used]
    exact Finset.range_add_one ▸ Finset.mem_range.mpr within

end FrcRobot.CmdTimerWrappers
