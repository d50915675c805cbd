import FrcRobot.MotorLink

set_option autoImplicit false

namespace FrcRobot.MotorLink

open DeferredQueue (Server serve_iff settled_enqueue settled_serve settled_of_drained execAll
  execAll_cons)

variable {K : Type*}

/-- Of the link it started as, a processor has changed nothing but the Talon,
and nothing but speeds wait in its queue. -/
structure SpeedsOnly (start : LinkState K) (processor : Processor K) : Prop where
  released : processor.state.link.spdControlEnabled = false
  speedScalar : processor.state.link.speedScalar = start.link.speedScalar
  motorReversed : processor.state.link.motorReversed = start.link.motorReversed
  speeds : ∀ request ∈ processor.queue, ∃ pow, request = .setSpeedImpl pow

theorem SpeedsOnly.initial {start : LinkState K} (released : start.link.spdControlEnabled = false) :
    SpeedsOnly start ⟨start, []⟩ :=
  ⟨released, rfl, rfl, fun _ member => absurd member List.not_mem_nil⟩

variable [Field K]

@[simp] theorem setSpeedImpl_setSpeedImpl (state : LinkState K) (first second : K) :
    (state.setSpeedImpl first).setSpeedImpl second = state.setSpeedImpl second := rfl

/-- Once its queue is empty the processor will have written this speed last. -/
def Leaves (processor : Processor K) (pow : K) : Prop :=
  processor.settled LinkState.exec = some (processor.state.setSpeedImpl pow)

theorem execAll_speeds {requests : List (Request K)}
    (speeds : ∀ request ∈ requests, ∃ pow, request = .setSpeedImpl pow) (state : LinkState K) :
    ∃ last, execAll LinkState.exec state requests = some last ∧
      ∀ pow, last.setSpeedImpl pow = state.setSpeedImpl pow := by
  induction requests generalizing state with
  | nil => exact ⟨state, rfl, fun _ => rfl⟩
  | cons request rest ih =>
      obtain ⟨first, rfl⟩ := speeds request (List.mem_cons_self ..)
      have tail : ∀ other ∈ rest, ∃ pow, other = .setSpeedImpl pow :=
        fun other member => speeds other (List.mem_cons_of_mem _ member)
      obtain ⟨last, executed, same⟩ := ih tail (state.setSpeedImpl first)
      refine ⟨last, executed, fun pow => ?_⟩
      rw [same pow, setSpeedImpl_setSpeedImpl]

theorem SpeedsOnly.setSpeed {start : LinkState K} {processor next : Processor K} {pow : K}
    (only : SpeedsOnly start processor) (called : setSpeed processor pow = some next) :
    SpeedsOnly start next ∧ Leaves next pow := by
  have enqueued : next = processor.enqueue (.setSpeedImpl pow) := by
    simp only [MotorLink.setSpeed, LinkState.releaseControl, only.released, Bool.false_eq_true,
      ↓reduceIte, Option.map_some, Option.some.injEq] at called
    exact called.symm
  subst enqueued
  refine ⟨⟨only.released, only.speedScalar, only.motorReversed, ?_⟩, ?_⟩
  · intro request member
    rcases List.mem_append.mp member with old | new
    · exact only.speeds request old
    · exact ⟨pow, List.mem_singleton.mp new⟩
  · obtain ⟨last, executed, same⟩ := execAll_speeds only.speeds processor.state
    show (processor.enqueue (.setSpeedImpl pow)).settled LinkState.exec = _
    rw [settled_enqueue, Server.settled, executed]
    exact congrArg some (same pow)

theorem SpeedsOnly.serve_state {start : LinkState K} {processor next : Processor K}
    (only : SpeedsOnly start processor) (served : processor.serve LinkState.exec = some next) :
    ∃ pow, processor.queue = .setSpeedImpl pow :: next.queue ∧
      next.state = processor.state.setSpeedImpl pow := by
  obtain ⟨request, head, executed⟩ := (serve_iff LinkState.exec _ _).mp served
  obtain ⟨pow, rfl⟩ := only.speeds request (by simp [head])
  exact ⟨pow, head, (Option.some.inj executed).symm⟩

theorem SpeedsOnly.serve {start : LinkState K} {processor next : Processor K}
    (only : SpeedsOnly start processor) (served : processor.serve LinkState.exec = some next) :
    SpeedsOnly start next := by
  obtain ⟨pow, head, written⟩ := only.serve_state served
  refine ⟨?_, ?_, ?_, ?_⟩
  · rw [written]
    exact only.released
  · rw [written]
    exact only.speedScalar
  · rw [written]
    exact only.motorReversed
  · intro request member
    exact only.speeds request (by simp [head, member])

theorem Leaves.serve {start : LinkState K} {processor next : Processor K} {pow : K}
    (only : SpeedsOnly start processor) (served : processor.serve LinkState.exec = some next)
    (leaves : Leaves processor pow) : Leaves next pow := by
  obtain ⟨first, _, written⟩ := only.serve_state served
  unfold Leaves
  rw [settled_serve LinkState.exec served, leaves, written, setSpeedImpl_setSpeedImpl]

/-- The Talon of a link whose queue is empty. -/
theorem Leaves.drained {start : LinkState K} {processor : Processor K} {pow : K}
    (only : SpeedsOnly start processor) (leaves : Leaves processor pow)
    (drained : processor.queue = []) :
    processor.state.link.talon =
      some (pow * start.link.speedScalar * (if start.link.motorReversed then -1 else 1)) := by
  have written : processor.state = processor.state.setSpeedImpl pow :=
    Option.some.inj ((settled_of_drained LinkState.exec drained).symm.trans leaves)
  rw [written, ← only.speedScalar, ← only.motorReversed]
  rfl

end FrcRobot.MotorLink
