import FrcRobot.CmdTimerOwner
import FrcRobot.CockArmTimer

set_option autoImplicit false

/- The cocking arm on a Win32 timer, which goes on when it has expired. -/
namespace FrcRobot.CockArmWin32

open CmdTimerWrappers (FreshAnswers Owner)
open CockArmTimer (loopStep)
open Interleaving

/-- `timers` are all Win32 timers, and `sent` the calls of execute that have asked for
a speed and have not armed the timer again. -/
structure Parties where
  cockArmActive : Bool
  armEnabled : Bool
  timers : CmdTimerWrappers.Parties
  sent : Nat
  requested : Option ℚ

/-- `answer` and `killed` are what the O/S answers. A call of execute begins with the
invocation of the timer's command and has returned when TimerHandler does. -/
inductive Action where
  | start (answer : Nat)
  | cancel (killed : Bool)
  | stopArmCock
  | startArmCock
  | setArmEnabled (enabled : Bool)
  | expire (idEvent : Nat)
  | execute (index shooterTSensor : Nat)
  | rearm (answer : Nat)
  | returns (index : Nat) (killed : Bool)
  | others (action : CmdTimerWrappers.Action)

/-- The step of the timers that an action may take. -/
def timerAction (owner : Owner) : Action → Option CmdTimerWrappers.Action
  | .start answer | .rearm answer => some (.startRelative owner.wrapper 200 answer)
  | .cancel killed => some (.cancel owner.wrapper killed)
  | .expire idEvent => some (.expire idEvent)
  | .execute index _ => some (.invoke index)
  | .returns index killed => some (.finish index .returns killed)
  | .others action => some action
  | .stopArmCock | .startArmCock | .setArmEnabled _ => none

namespace Parties

def arm (owner : Owner) (parties : Parties) : CockArm :=
  ⟨parties.cockArmActive, owner.running parties.timers⟩

def tell (platform : Platform) (parties : Parties) (action : CmdTimerWrappers.Action) :
    Option Parties :=
  (CmdTimerWrappers.step platform parties.timers action).map fun timers =>
    { parties with timers := timers }

/-- The calls of execute that have begun. -/
def executing (owner : Owner) (parties : Parties) : Nat :=
  parties.timers.handlers.countP fun handler => handler.timer = owner.timer && handler.invoked

def execute (owner : Owner) (parties : Parties) (shooterTSensor : Nat) : Parties :=
  match (parties.arm owner).execute parties.armEnabled shooterTSensor with
  | none => parties
  | some speed => { parties with sent := parties.sent + 1, requested := some speed }

end Parties

def step (platform : Platform) (owner : Owner) (parties : Parties) : Action → Option Parties
  | .start answer =>
      if !owner.running parties.timers then
        parties.tell platform (.startRelative owner.wrapper 200 answer)
      else some parties
  | .cancel killed =>
      if owner.running parties.timers then parties.tell platform (.cancel owner.wrapper killed)
      else some parties
  | .stopArmCock => some { parties with cockArmActive := false }
  | .startArmCock => some { parties with cockArmActive := true }
  | .setArmEnabled enabled => some { parties with armEnabled := enabled }
  | .expire idEvent =>
      if parties.timers.timers.timerHandler idEvent = some owner.timer then
        parties.tell platform (.expire idEvent)
      else none
  | .execute index shooterTSensor =>
      if parties.timers.handlers[index]?.map CmdTimerWrappers.Handler.timer =
          some owner.timer then
        (parties.tell platform (.invoke index)).map (Parties.execute owner · shooterTSensor)
      else none
  | .rearm answer =>
      if 0 < parties.sent then
        { parties with sent := parties.sent - 1 }.tell platform
          (.startRelative owner.wrapper 200 answer)
      else none
  | .returns index killed =>
      if parties.timers.handlers[index]?.map CmdTimerWrappers.Handler.timer =
          some owner.timer ∧ parties.sent < parties.executing owner then
        parties.tell platform (.finish index .returns killed)
      else none
  | .others action =>
      if owner.Does parties.timers action then none else parties.tell platform action

/-- SetTimer answers the arm and all others with ids that no running timer has. -/
def Fresh (owner : Owner) (parties : Parties) (action : Action) : Prop :=
  ∀ asked, timerAction owner action = some asked → FreshAnswers parties.timers asked

/-- The arm's loop as its own model has it. -/
structure Twin (owner : Owner) (parties : Parties) (twin : CockArmCancel.Parties) : Prop where
  sound : owner.Sound parties.timers
  arm : twin.arm = parties.arm owner
  armEnabled : twin.armEnabled = parties.armEnabled
  begun : twin.begun = owner.begun parties.timers
  sent : twin.sent = parties.sent
  requested : twin.requested = parties.requested

/-- Only a cancel of the arm cancels its loop. -/
def Causes (action : Action) (entry : CockArmCancel.Action) : Prop :=
  entry = .cancel → ∃ killed, action = .cancel killed

section Matched

variable {platform : Platform} {owner : Owner} {parties next : Parties}
  {twin : CockArmCancel.Parties}

theorem tell_cases {action : CmdTimerWrappers.Action}
    (taken : parties.tell platform action = some next) :
    ∃ timers, CmdTimerWrappers.step platform parties.timers action = some timers ∧
      next = { parties with timers := timers } := by
  obtain ⟨timers, stepped, rfl⟩ := Option.map_eq_some_iff.mp taken
  exact ⟨timers, stepped, rfl⟩

/-- One action of the arm's loop, and what it leaves of the timers. -/
theorem matched_one {action : Action} (entry : CockArmCancel.Action)
    {after : CockArmCancel.Parties} (caused : Causes action entry)
    (taken : loopStep true twin entry = some after) (same : Twin owner next after) :
    ∃ labels twinNext, (∀ entry ∈ labels, Causes action entry) ∧
      run (loopStep true) twin labels = some twinNext ∧ Twin owner next twinNext := by
  refine ⟨[entry], after, fun other member => ?_, ?_, same⟩
  · exact List.mem_singleton.mp member ▸ caused
  · rw [run_cons, taken]
    rfl

theorem Twin.start (same : Twin owner parties twin) {answer : Nat}
    (fresh : Fresh owner parties (.start answer))
    (taken : step platform owner parties (.start answer) = some next) :
    Twin owner next { twin with arm := twin.arm.start, cancelled := false, newTicks := 0 } := by
  simp only [step] at taken
  split at taken
  · rename_i stopped
    obtain ⟨timers, stepped, rfl⟩ := tell_cases taken
    obtain ⟨keeps, running, begun⟩ := same.sound.keeps.start (by decide) (fresh _ rfl) stepped
    refine ⟨same.sound.step (fresh _ rfl) stepped keeps, ?_, same.armEnabled,
      same.begun.trans begun.symm, same.sent, same.requested⟩
    show twin.arm.start = ⟨parties.cockArmActive, owner.running timers⟩
    rw [same.arm, running, CockArm.start, Parties.arm, if_pos stopped]
    rfl
  · rename_i going
    cases taken
    refine ⟨same.sound, ?_, same.armEnabled, same.begun, same.sent, same.requested⟩
    show twin.arm.start = _
    rw [same.arm, CockArm.start, Parties.arm, if_neg going]

theorem Twin.cancel (same : Twin owner parties twin) {killed : Bool}
    (fresh : Fresh owner parties (.cancel killed))
    (taken : step platform owner parties (.cancel killed) = some next) :
    Twin owner next { twin with arm := twin.arm.cancel, cancelled := true, newTicks := 0 } := by
  simp only [step] at taken
  split at taken
  · rename_i going
    obtain ⟨timers, stepped, rfl⟩ := tell_cases taken
    obtain ⟨keeps, running, begun⟩ := same.sound.keeps.cancel stepped
    refine ⟨same.sound.step (fresh _ rfl) stepped keeps, ?_, same.armEnabled,
      same.begun.trans begun.symm, same.sent, same.requested⟩
    show twin.arm.cancel = ⟨parties.cockArmActive, owner.running timers⟩
    rw [same.arm, running, CockArm.cancel, Parties.arm, if_pos going]
  · rename_i stopped
    cases taken
    refine ⟨same.sound, ?_, same.armEnabled, same.begun, same.sent, same.requested⟩
    show twin.arm.cancel = _
    rw [same.arm, CockArm.cancel, Parties.arm, if_neg stopped]

theorem Twin.rearm (same : Twin owner parties twin) {answer : Nat}
    (fresh : Fresh owner parties (.rearm answer))
    (taken : step platform owner parties (.rearm answer) = some next) :
    ∃ after, loopStep true twin .rearm = some after ∧ Twin owner next after := by
  simp only [step] at taken
  split at taken
  · rename_i waiting
    obtain ⟨timers, stepped, rfl⟩ := tell_cases taken
    obtain ⟨keeps, running, begun⟩ := same.sound.keeps.start (by decide) (fresh _ rfl) stepped
    have due : 0 < twin.sent := same.sent ▸ waiting
    refine ⟨_, if_pos due, same.sound.step (fresh _ rfl) stepped keeps, ?_, same.armEnabled,
      same.begun.trans begun.symm, ?_, same.requested⟩
    · show twin.arm.startRelative = ⟨parties.cockArmActive, owner.running timers⟩
      rw [same.arm, running]
      rfl
    · show twin.sent - 1 = parties.sent - 1
      rw [same.sent]
  · cases taken

theorem Twin.execute (same : Twin owner parties twin) {index shooterTSensor : Nat}
    (fresh : Fresh owner parties (.execute index shooterTSensor))
    (taken : step platform owner parties (.execute index shooterTSensor) = some next) :
    ∃ after, loopStep true twin (.execute shooterTSensor) = some after ∧
      Twin owner next after := by
  simp only [step] at taken
  split at taken
  · rename_i its
    obtain ⟨told, tells, rfl⟩ := Option.map_eq_some_iff.mp taken
    obtain ⟨timers, stepped, rfl⟩ := tell_cases tells
    obtain ⟨keeps, running, begun⟩ := same.sound.keeps.invoke its stepped
    have sound := same.sound.step (fresh _ rfl) stepped keeps
    have waiting : 0 < twin.begun := by
      rw [same.begun]
      omega
    have fewer : twin.begun - 1 = owner.begun timers := by
      rw [same.begun]
      omega
    have arm : twin.arm = ⟨parties.cockArmActive, owner.running timers⟩ := by
      rw [same.arm, running]
      rfl
    simp only [loopStep, CockArmCancel.step, if_pos waiting, Parties.execute, Parties.arm, arm,
      same.armEnabled]
    cases CockArm.execute ⟨parties.cockArmActive, owner.running timers⟩ parties.armEnabled
        shooterTSensor with
    | none => exact ⟨_, rfl, sound, rfl, rfl, fewer, same.sent, same.requested⟩
    | some speed =>
        refine ⟨_, rfl, sound, rfl, rfl, fewer, ?_, rfl⟩
        exact congrArg (· + 1) same.sent
  · cases taken

theorem Twin.expire (same : Twin owner parties twin) {idEvent : Nat}
    (fresh : Fresh owner parties (.expire idEvent))
    (taken : step platform owner parties (.expire idEvent) = some next) :
    ∃ after, loopStep true twin .expire = some after ∧ Twin owner next after := by
  simp only [step] at taken
  split at taken
  · rename_i its
    obtain ⟨timers, stepped, rfl⟩ := tell_cases taken
    have armed := (Option.ite_none_right_eq_some.mp stepped).1
    obtain ⟨running, keeps, still, begun⟩ := same.sound.keeps.expire same.sound.tables its
    have called : parties.timers.expire idEvent = timers :=
      Option.some.inj ((if_pos armed).symm.trans stepped)
    rw [called] at keeps still begun
    have going : twin.arm.timerIsRunning = true := by
      rw [same.arm]
      exact running
    refine ⟨_, if_pos going, same.sound.step (fresh _ rfl) stepped keeps, ?_, same.armEnabled, ?_,
      same.sent, same.requested⟩
    · show twin.arm = ⟨parties.cockArmActive, owner.running timers⟩
      rw [same.arm, still, Parties.arm, running]
    · show twin.begun + 1 = owner.begun timers
      rw [begun, same.begun]
  · cases taken

/-- What the timers have done is nothing to the arm. -/
theorem Twin.unchanged (same : Twin owner parties twin) {action : CmdTimerWrappers.Action}
    {timers : CmdTimerWrappers.Parties} (fresh : FreshAnswers parties.timers action)
    (stepped : CmdTimerWrappers.step platform parties.timers action = some timers)
    (unchanged : owner.Same parties.timers timers) :
    Twin owner { parties with timers := timers } twin := by
  refine ⟨same.sound.step fresh stepped unchanged.keeps, ?_, same.armEnabled,
    same.begun.trans unchanged.begun.symm, same.sent, same.requested⟩
  rw [same.arm, Parties.arm, Parties.arm, unchanged.running]

/-- A step of the arm among all Win32 timers is at most one of its loop with a timer
that repeats. -/
theorem Twin.step (same : Twin owner parties twin) {action : Action}
    (fresh : Fresh owner parties action) (taken : step platform owner parties action = some next) :
    ∃ labels twinNext, (∀ entry ∈ labels, Causes action entry) ∧
      run (loopStep true) twin labels = some twinNext ∧ Twin owner next twinNext := by
  cases action with
  | start answer => exact matched_one .start nofun rfl (same.start fresh taken)
  | cancel killed =>
      exact matched_one .cancel (fun _ => ⟨killed, rfl⟩) rfl (same.cancel fresh taken)
  | stopArmCock =>
      cases taken
      have arm : twin.arm.stopArmCock = ⟨false, owner.running parties.timers⟩ := by
        rw [same.arm]
        rfl
      exact matched_one .stopArmCock nofun rfl
        ⟨same.sound, arm, same.armEnabled, same.begun, same.sent, same.requested⟩
  | startArmCock =>
      cases taken
      have arm : twin.arm.startArmCock = ⟨true, owner.running parties.timers⟩ := by
        rw [same.arm]
        rfl
      exact matched_one .startArmCock nofun rfl
        ⟨same.sound, arm, same.armEnabled, same.begun, same.sent, same.requested⟩
  | setArmEnabled enabled =>
      cases taken
      exact matched_one (.setArmEnabled enabled) nofun rfl
        ⟨same.sound, same.arm, rfl, same.begun, same.sent, same.requested⟩
  | expire idEvent =>
      obtain ⟨after, matched, kept⟩ := same.expire fresh taken
      exact matched_one .expire nofun matched kept
  | execute index shooterTSensor =>
      obtain ⟨after, matched, kept⟩ := same.execute fresh taken
      exact matched_one (.execute shooterTSensor) nofun matched kept
  | rearm answer =>
      obtain ⟨after, matched, kept⟩ := same.rearm fresh taken
      exact matched_one .rearm nofun matched kept
  | returns index killed =>
      simp only [CockArmWin32.step] at taken
      split at taken
      · obtain ⟨timers, stepped, rfl⟩ := tell_cases taken
        have unchanged := same.sound.keeps.finish stepped
        exact ⟨[], twin, nofun, rfl, same.unchanged (fresh _ rfl) stepped unchanged⟩
      · cases taken
  | others action =>
      simp only [CockArmWin32.step] at taken
      split at taken
      · cases taken
      · rename_i others
        obtain ⟨timers, stepped, rfl⟩ := tell_cases taken
        have unchanged := same.sound.keeps.others same.sound.allocated others stepped
        exact ⟨[], twin, nofun, rfl, same.unchanged (fresh _ rfl) stepped unchanged⟩

/-- So is a run of it. -/
theorem Twin.run {start last : Parties} {actions : List Action} (same : Twin owner start twin)
    (fresh : Along (CockArmWin32.step platform owner) (Fresh owner) start actions)
    (taken : Interleaving.run (CockArmWin32.step platform owner) start actions = some last) :
    ∃ labels twinLast, (∀ entry ∈ labels, ∃ action ∈ actions, Causes action entry) ∧
      Interleaving.run (loopStep true) twin labels = some twinLast ∧ Twin owner last twinLast := by
  have matched : ∀ parties action next twin, Twin owner parties twin →
      Fresh owner parties action → CockArmWin32.step platform owner parties action = some next →
      ∃ labels twinNext, (∀ entry ∈ labels, Causes action entry) ∧
        Interleaving.run (loopStep true) twin labels = some twinNext ∧ Twin owner next twinNext :=
    fun _ _ _ _ same permitted first => same.step permitted first
  exact run_matched matched same fresh taken

end Matched

section Runs

variable {platform : Platform} {armEnabled : Bool} {command : Nat}
  {earlier : List CmdTimerWrappers.Action} {timers built : CmdTimerWrappers.Parties}

/-- The arm as it is constructed among timers that may have a past. -/
def constructed (armEnabled : Bool) (built : CmdTimerWrappers.Parties) : Parties :=
  ⟨true, armEnabled, built, 0, none⟩

theorem twin_constructed
    (freshly : Along (CmdTimerWrappers.step platform) FreshAnswers .initial earlier)
    (before : run (CmdTimerWrappers.step platform) .initial earlier = some timers)
    (constructs : CmdTimerWrappers.step platform timers (.construct (some command)) = some built) :
    Twin (.next timers) (constructed armEnabled built) (CockArmCancel.initial armEnabled) := by
  obtain ⟨sound, stopped, none⟩ := Owner.sound_constructed freshly before constructs
  refine ⟨sound, ?_, rfl, none.symm, rfl, rfl⟩
  show (⟨true, false⟩ : CockArm) = ⟨true, (Owner.next timers).running built⟩
  rw [stopped]

/-- The arm is switched off while its timer runs, and a tick finds it so. -/
def pausedTick : List Action :=
  [.stopArmCock, .expire 1, .execute 0 0, .returns 0 false]

theorem pausedTick_fresh {owner : Owner} {parties : Parties} :
    Along (step platform owner) (Fresh owner) parties pausedTick := by
  refine Along.of_forall (fun action member parties asked same answer answers => ?_) parties
  simp only [pausedTick, List.mem_cons, List.not_mem_nil, or_false] at member
  rcases member with rfl | rfl | rfl | rfl <;> cases same <;> cases answers

/-- There are no timers before the arm's. -/
theorem none_earlier :
    Along (CmdTimerWrappers.step .unitTests) FreshAnswers .initial [] := trivial

theorem started_fresh (rest : List Action)
    (later : ∀ parties, Along (step .unitTests ⟨0, 0⟩) (Fresh ⟨0, 0⟩) parties rest) :
    ∃ built, CmdTimerWrappers.step .unitTests .initial (.construct (some 0)) = some built ∧
      Along (step .unitTests ⟨0, 0⟩) (Fresh ⟨0, 0⟩) (constructed false built)
        (.start 1 :: rest) := by
  refine ⟨_, rfl, ?_, fun next _ => later next⟩
  rintro asked ⟨⟩ answer ⟨⟩
  exact ⟨Nat.one_ne_zero, fun _ => Nat.zero_ne_one⟩

/-- From the moment at which the arm's timer runs and until the arm is cancelled, the
O/S can call back for it: no pause ends the loop, and nothing that the others do. -/
theorem keeps_firing
    (freshly : Along (CmdTimerWrappers.step platform) FreshAnswers .initial earlier)
    (before : run (CmdTimerWrappers.step platform) .initial earlier = some timers)
    (constructs : CmdTimerWrappers.step platform timers (.construct (some command)) = some built)
    {first after : List Action} {middle last : Parties}
    (fresh : Along (step platform (.next timers)) (Fresh (.next timers))
      (constructed armEnabled built) first)
    (reached : run (step platform (.next timers)) (constructed armEnabled built) first =
      some middle)
    (going : (Owner.next timers).running middle.timers = true)
    (freshAfter : Along (step platform (.next timers)) (Fresh (.next timers)) middle after)
    (taken : run (step platform (.next timers)) middle after = some last)
    (uncancelled : ∀ action ∈ after, ∀ killed, action ≠ .cancel killed) :
    ∃ idEvent, CmdTimerWrappers.Fires last.timers idEvent (Owner.next timers).timer := by
  obtain ⟨_, twin, _, _, same⟩ := (twin_constructed freshly before constructs).run fresh reached
  obtain ⟨labels, twinLast, caused, ran, sameLast⟩ := same.run freshAfter taken
  have running : twin.arm.timerIsRunning = true := by
    rw [same.arm]
    exact going
  have still : twinLast.arm.timerIsRunning = true := by
    refine CockArmTimer.repeating_running running (fun entry member isCancel => ?_) ran
    obtain ⟨action, among, because⟩ := caused entry member
    obtain ⟨killed, cancels⟩ := because isCancel
    exact uncancelled action among killed cancels
  rw [sameLast.arm] at still
  have nonzero : last.timers.timers.timerID (Owner.next timers).timer ≠ 0 := of_decide_eq_true still
  exact ⟨_, sameLast.sound.tables.fires nonzero sameLast.sound.keeps.command⟩

theorem keeps_firing_paused :
    ∃ built middle last,
      CmdTimerWrappers.step .unitTests .initial (.construct (some 0)) = some built ∧
      run (step .unitTests ⟨0, 0⟩) (constructed false built) [.start 1] = some middle ∧
      run (step .unitTests ⟨0, 0⟩) middle pausedTick = some last ∧
      ∃ idEvent, CmdTimerWrappers.Fires last.timers idEvent 0 := by
  obtain ⟨built, constructs, fresh⟩ := started_fresh [] fun _ => trivial
  cases constructs
  refine ⟨_, _, _, rfl, rfl, rfl, ?_⟩
  exact keeps_firing none_earlier rfl rfl fresh rfl rfl pausedTick_fresh rfl (by simp [pausedTick])

end Runs

end FrcRobot.CockArmWin32
