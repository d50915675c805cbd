import FrcRobot.Interleaving
import FrcRobot.LastWrite
import FrcRobot.ListenerManager
import Mathlib.Algebra.Order.Ring.Rat

set_option autoImplicit false

/- The joystick of the tests, set by one thread while another polls it control by
control. -/
namespace FrcRobot

open Interleaving LastWrite ListenerManager

/-- The guards of its methods declare a variable named `_mutex` of their own, so none
of them acquires the mutex. -/
structure JoystickMock (K : Type*) where
  buttons : Vector Bool 11
  joysticks : Vector K 16

namespace JoystickMock

variable {K : Type*}

inductive Call (K : Type*) where
  | setJoystick (joystickNumber : ℤ) (value : K)
  | setButton (buttonNumber : ℤ) (value : Bool)

def setJoystick (mock : JoystickMock K) (joystickNumber : ℤ) (value : K) :
    Except String (JoystickMock K) :=
  if 1 ≤ joystickNumber ∧ joystickNumber ≤ 5 then
    .ok { mock with joysticks := mock.joysticks.setIfInBounds joystickNumber.toNat value }
  else .error ("setJoystick called with invalid joystick number " ++ toString joystickNumber)

def setButton (mock : JoystickMock K) (buttonNumber : ℤ) (value : Bool) :
    Except String (JoystickMock K) :=
  if 1 ≤ buttonNumber ∧ buttonNumber ≤ 10 then
    .ok { mock with buttons := mock.buttons.setIfInBounds buttonNumber.toNat value }
  else .error ("setJoystick called with invalid button number " ++ toString buttonNumber)

def perform (mock : JoystickMock K) : Call K → Except String (JoystickMock K)
  | .setJoystick joystickNumber value => mock.setJoystick joystickNumber value
  | .setButton buttonNumber value => mock.setButton buttonNumber value

/-- A call that throws leaves the joystick as it was. -/
def afterCall (mock : JoystickMock K) (call : Call K) : JoystickMock K :=
  match mock.perform call with
  | .ok next => next
  | .error _ => mock

/-- Beyond the vectors the source's reads are undefined. -/
def getRawButton (mock : JoystickMock K) (button : Nat) : Bool := mock.buttons[button]?.getD false

def construct [Zero K] : JoystickMock K := ⟨Vector.replicate 11 false, Vector.replicate 16 0⟩

def getRawAxis [Zero K] (mock : JoystickMock K) (axis : Nat) : K :=
  mock.joysticks[axis]?.getD 0

/-- A call of pollControls: what it has read, and which controls it has still to
read. -/
structure Poll (K : Type*) where
  mock : JoystickMock K
  newValues : ControlValues K
  buttons : List (Fin 11)
  axes : List (Fin 16)

inductive Action (K : Type*) where
  | call (call : Call K)
  | read

section Poll

variable [Zero K]

def beginPoll (mock : JoystickMock K) : Poll K :=
  ⟨mock, initialValues, buttonCounters, axisCounters⟩

/-- The buttons are read before the axes. -/
def Poll.read (poll : Poll K) : Option (Poll K) :=
  match poll.buttons with
  | counter :: rest => some { poll with
      newValues := poll.newValues.setButton counter (poll.mock.getRawButton counter)
      buttons := rest }
  | [] =>
      match poll.axes with
      | counter :: rest => some { poll with
          newValues := poll.newValues.setAxis counter (poll.mock.getRawAxis (counter - 10))
          axes := rest }
      | [] => none

def step (poll : Poll K) : Action K → Option (Poll K)
  | .call call => some { poll with mock := poll.mock.afterCall call }
  | .read => poll.read

end Poll

/-- The joystick after the calls among the actions. -/
def shown (mock : JoystickMock K) (actions : List (Action K)) : JoystickMock K :=
  actions.foldl (fun mock action =>
    match action with
    | .call call => mock.afterCall call
    | .read => mock) mock

section Values

theorem setButton_buttonAt (values : ControlValues K) (counter button : Fin 11) (value : Bool) :
    (values.setButton counter value).buttonAt button =
      if counter = button then value else values.buttonAt button := by
  simp only [ControlValues.buttonAt, ControlValues.setButton, Vector.getElem_set, Fin.val_inj]

/-- The values of two polls are the same where every entry is. -/
theorem controlValues_ext {values others : ControlValues K}
    (buttons : ∀ counter, values.buttonAt counter = others.buttonAt counter)
    (axes : ∀ counter, values.axisAt counter = others.axisAt counter) : values = others := by
  obtain ⟨buttonValues, joystickValues⟩ := values
  obtain ⟨otherButtons, otherAxes⟩ := others
  have sameButtons : buttonValues = otherButtons :=
    Vector.ext fun index within => buttons ⟨index, within⟩
  have sameAxes : joystickValues = otherAxes :=
    Vector.ext fun index within => axes ⟨index, within⟩
  rw [sameButtons, sameAxes]

end Values

section Samples

variable [Zero K] {mock : JoystickMock K} {actions : List (Action K)} {poll next : Poll K}

/-- What a control showed at some moment of a poll. -/
def Showed {ν : Type*} (mock : JoystickMock K) (actions : List (Action K))
    (read : JoystickMock K → ν) (value : ν) : Prop :=
  ∃ before, before <+: actions ∧ value = read (shown mock before)

omit [Zero K] in
theorem Showed.later {ν : Type*} {read : JoystickMock K → ν} {value : ν}
    (showed : Showed mock actions read value) (action : Action K) :
    Showed mock (actions ++ [action]) read value := by
  obtain ⟨before, early, same⟩ := showed
  exact ⟨before, early.trans (List.prefix_append _ _), same⟩

/-- What a poll that is under way has done so far. -/
structure Sampled (mock : JoystickMock K) (actions : List (Action K)) (poll : Poll K) : Prop where
  current : poll.mock = shown mock actions
  buttons : poll.buttons <:+ buttonCounters
  axes : poll.axes <:+ axisCounters
  readButtons : ∀ counter ∈ buttonCounters, counter ∉ poll.buttons →
    Showed mock actions (fun mock => mock.getRawButton counter) (poll.newValues.buttonAt counter)
  readAxes : ∀ counter ∈ axisCounters, counter ∉ poll.axes →
    Showed mock actions (fun mock => mock.getRawAxis (counter - 10))
      (poll.newValues.axisAt counter)
  otherButtons : ∀ counter, counter ∉ buttonCounters → poll.newValues.buttonAt counter = false
  otherAxes : ∀ counter, counter ∉ axisCounters → poll.newValues.axisAt counter = 0

theorem sampled_begin (mock : JoystickMock K) : Sampled mock [] (beginPoll mock) where
  current := rfl
  buttons := List.suffix_rfl
  axes := List.suffix_rfl
  readButtons _ inLoop unread := absurd inLoop unread
  readAxes _ inLoop unread := absurd inLoop unread
  otherButtons counter _ := initialValues_buttonAt counter
  otherAxes counter _ := initialValues_axisAt counter

omit [Zero K] in
theorem shown_append (mock : JoystickMock K) (actions : List (Action K)) (action : Action K) :
    shown mock (actions ++ [action]) =
      match action with
      | .call call => (shown mock actions).afterCall call
      | .read => shown mock actions := by
  rw [shown, List.foldl_append]
  cases action <;> rfl

theorem Sampled.readButton (sampled : Sampled mock actions poll) {counter : Fin 11}
    {rest : List (Fin 11)} (waiting : poll.buttons = counter :: rest) :
    Sampled mock (actions ++ [.read]) { poll with
      newValues := poll.newValues.setButton counter (poll.mock.getRawButton counter)
      buttons := rest } := by
  have suffix : counter :: rest <:+ buttonCounters := waiting ▸ sampled.buttons
  have inLoop : counter ∈ buttonCounters := suffix.mem (List.mem_cons_self ..)
  refine ⟨?_, (List.suffix_cons counter rest).trans suffix, sampled.axes, ?_, ?_, ?_, ?_⟩
  · exact sampled.current.trans (shown_append mock actions .read).symm
  · intro button member unread
    rw [setButton_buttonAt]
    split
    · rename_i here
      subst here
      exact ⟨actions, List.prefix_append _ _, by rw [sampled.current]⟩
    · rename_i apart
      refine (sampled.readButtons button member ?_).later .read
      rw [waiting]
      exact List.not_mem_cons_of_ne_of_not_mem (Ne.symm apart) unread
  · exact fun axis member unread => (sampled.readAxes axis member unread).later .read
  · intro button outside
    have apart : counter ≠ button := fun here => outside (here ▸ inLoop)
    rw [setButton_buttonAt, if_neg apart]
    exact sampled.otherButtons button outside
  · exact sampled.otherAxes

theorem Sampled.readAxis (sampled : Sampled mock actions poll) {counter : Fin 16}
    {rest : List (Fin 16)} (waiting : poll.axes = counter :: rest) :
    Sampled mock (actions ++ [.read]) { poll with
      newValues := poll.newValues.setAxis counter (poll.mock.getRawAxis (counter - 10))
      axes := rest } := by
  have suffix : counter :: rest <:+ axisCounters := waiting ▸ sampled.axes
  have inLoop : counter ∈ axisCounters := suffix.mem (List.mem_cons_self ..)
  refine ⟨?_, sampled.buttons, (List.suffix_cons counter rest).trans suffix, ?_, ?_, ?_, ?_⟩
  · exact sampled.current.trans (shown_append mock actions .read).symm
  · exact fun button member unread => (sampled.readButtons button member unread).later .read
  · intro axis member unread
    rw [ControlValues.setAxis_axisAt]
    split
    · rename_i here
      subst here
      exact ⟨actions, List.prefix_append _ _, by rw [sampled.current]⟩
    · rename_i apart
      refine (sampled.readAxes axis member ?_).later .read
      rw [waiting]
      exact List.not_mem_cons_of_ne_of_not_mem (Ne.symm apart) unread
  · exact sampled.otherButtons
  · intro axis outside
    have apart : counter ≠ axis := fun here => outside (here ▸ inLoop)
    rw [ControlValues.setAxis_axisAt, if_neg apart]
    exact sampled.otherAxes axis outside

theorem Sampled.step (sampled : Sampled mock actions poll) {action : Action K}
    (taken : JoystickMock.step poll action = some next) :
    Sampled mock (actions ++ [action]) next := by
  cases action with
  | call call =>
      cases taken
      refine ⟨?_, sampled.buttons, sampled.axes, ?_, ?_, sampled.otherButtons, sampled.otherAxes⟩
      · rw [shown_append]
        exact congrArg (fun mock => mock.afterCall call) sampled.current
      · exact fun button member unread => (sampled.readButtons button member unread).later _
      · exact fun axis member unread => (sampled.readAxes axis member unread).later _
  | read =>
      simp only [JoystickMock.step, Poll.read] at taken
      split at taken
      · rename_i waiting
        cases taken
        exact sampled.readButton waiting
      · split at taken
        · rename_i waiting
          cases taken
          exact sampled.readAxis waiting
        · cases taken

theorem Sampled.run {last : Poll K} {before later : List (Action K)}
    (sampled : Sampled mock before poll) (taken : run JoystickMock.step poll later = some last) :
    Sampled mock (before ++ later) last := by
  induction later generalizing poll before with
  | nil =>
      cases taken
      rw [List.append_nil]
      exact sampled
  | cons action rest ih =>
      obtain ⟨middle, first, others⟩ := Option.bind_eq_some_iff.mp taken
      rw [List.append_cons]
      exact ih (sampled.step first) others

/-- The entries that no loop assigns. -/
theorem pollControls_other_button (joystick : Joystick K) {counter : Fin 11}
    (outside : counter ∉ buttonCounters) : (pollControls joystick).buttonAt counter = false := by
  simp only [ControlValues.buttonAt, pollControls, assignEach_get, outside, ↓reduceIte,
    Vector.getElem_replicate]

theorem pollControls_other_axis (joystick : Joystick K) {counter : Fin 16}
    (outside : counter ∉ axisCounters) : (pollControls joystick).axisAt counter = 0 := by
  simp only [ControlValues.axisAt, pollControls, assignEach_get, outside, ↓reduceIte,
    Vector.getElem_replicate]

/-- The joystick that shows these values. -/
def joystickOf (values : ControlValues K) : Joystick K where
  getRawButton button := if within : button < 11 then values.buttonAt ⟨button, within⟩ else false
  getRawAxis axis := if within : axis + 10 < 16 then values.axisAt ⟨axis + 10, within⟩ else 0

theorem joystickOf_button (values : ControlValues K) (counter : Fin 11) :
    (joystickOf values).getRawButton counter = values.buttonAt counter :=
  dif_pos counter.isLt

theorem joystickOf_axis (values : ControlValues K) {counter : Fin 16}
    (inLoop : counter ∈ axisCounters) :
    (joystickOf values).getRawAxis (counter - 10) = values.axisAt counter := by
  have offset : ∀ counter ∈ axisCounters, counter.val - 10 + 10 = counter.val := by decide
  have same : counter.val - 10 + 10 = counter.val := offset counter inLoop
  have within : counter.val - 10 + 10 < 16 := same ▸ counter.isLt
  have here : (⟨counter.val - 10 + 10, within⟩ : Fin 16) = counter := Fin.ext same
  exact (dif_pos within).trans (congrArg values.axisAt here)

/-- A poll that has read every control. -/
def Poll.Complete (poll : Poll K) : Prop := poll.buttons = [] ∧ poll.axes = []

/-- A joystick whose controls move while it is polled is read like one that stands
still, with each control where it was at some moment of the poll. -/
theorem poll_samples (mock : JoystickMock K) {last : Poll K}
    (taken : run JoystickMock.step (beginPoll mock) actions = some last)
    (complete : last.Complete) :
    ∃ joystick : Joystick K, last.newValues = pollControls joystick ∧
      (∀ counter ∈ buttonCounters, Showed mock actions (fun mock => mock.getRawButton counter)
        (joystick.getRawButton counter)) ∧
      ∀ counter ∈ axisCounters, Showed mock actions (fun mock => mock.getRawAxis (counter - 10))
        (joystick.getRawAxis (counter - 10)) := by
  have sampled : Sampled mock actions last := (sampled_begin mock).run taken
  obtain ⟨noButtons, noAxes⟩ := complete
  refine ⟨joystickOf last.newValues, ?_, ?_, ?_⟩
  · apply controlValues_ext
    · intro counter
      by_cases inLoop : counter ∈ buttonCounters
      · rw [pollControls_button _ inLoop, joystickOf_button]
      · rw [sampled.otherButtons counter inLoop, pollControls_other_button _ inLoop]
    · intro counter
      by_cases inLoop : counter ∈ axisCounters
      · rw [pollControls_axis _ inLoop, joystickOf_axis _ inLoop]
      · rw [sampled.otherAxes counter inLoop, pollControls_other_axis _ inLoop]
  · intro counter inLoop
    rw [joystickOf_button]
    exact sampled.readButtons counter inLoop (by simp [noButtons])
  · intro counter inLoop
    rw [joystickOf_axis _ inLoop]
    exact sampled.readAxes counter inLoop (by simp [noAxes])

end Samples

/-- The last of these numbers is out of range. -/
def script : List (Call ℚ) :=
  [.setButton 4 true, .setJoystick 3 (5 / 2), .setButton 8 true, .setButton 11 true]

/-- The A and the B button are pressed after the poll has read A and before it reads B. -/
def reads : List (Action ℚ) :=
  [.read, .call (.setButton 1 true), .call (.setButton 2 true)] ++ List.replicate 14 .read

theorem run_reads : ∃ last, run step (beginPoll (script.foldl afterCall construct)) reads =
    some last ∧ last.Complete ∧ last.newValues.buttonAt 1 = false ∧
      last.newValues.buttonAt 2 = true := by
  have taken : (run step (beginPoll (script.foldl afterCall construct)) reads).map
      (fun last => (last.buttons, last.axes, last.newValues.buttonAt 1,
        last.newValues.buttonAt 2)) = some ([], [], false, true) := by decide +kernel
  obtain ⟨last, ran, same⟩ := Option.map_eq_some_iff.mp taken
  simp only [Prod.mk.injEq] at same
  exact ⟨last, ran, ⟨same.1, same.2.1⟩, same.2.2⟩

theorem poll_samples_reads : ∃ (last : Poll ℚ) (joystick : Joystick ℚ),
    last.newValues = pollControls joystick ∧
      joystick.getRawButton 1 = false ∧ joystick.getRawButton 2 = true ∧
      ∀ counter ∈ buttonCounters, Showed (script.foldl afterCall construct) reads
        (fun mock => mock.getRawButton counter) (joystick.getRawButton counter) := by
  obtain ⟨last, taken, complete, released, pressed⟩ := run_reads
  obtain ⟨joystick, same, buttons, _⟩ := poll_samples _ taken complete
  have button : ∀ counter ∈ buttonCounters,
      last.newValues.buttonAt counter = joystick.getRawButton counter := by
    intro counter inLoop
    rw [same, pollControls_button joystick inLoop]
  exact ⟨last, joystick, same, (button 1 (by decide)).symm.trans released,
    (button 2 (by decide)).symm.trans pressed, buttons⟩

section Retrieval

/-- The value that a call gives a button, if it gives it one. -/
def Call.button (button : Nat) : Call K → Option Bool
  | .setButton buttonNumber value => if buttonNumber = button then some value else none
  | .setJoystick _ _ => none

def Call.axis (axis : Nat) : Call K → Option K
  | .setJoystick joystickNumber value => if joystickNumber = axis then some value else none
  | .setButton _ _ => none

theorem afterCall_setJoystick (mock : JoystickMock K) (joystickNumber : ℤ) (value : K) :
    mock.afterCall (.setJoystick joystickNumber value) =
      if 1 ≤ joystickNumber ∧ joystickNumber ≤ 5 then
        { mock with joysticks := mock.joysticks.setIfInBounds joystickNumber.toNat value }
      else mock := by
  by_cases inRange : 1 ≤ joystickNumber ∧ joystickNumber ≤ 5 <;>
    simp [afterCall, perform, setJoystick, inRange]

theorem afterCall_setButton (mock : JoystickMock K) (buttonNumber : ℤ) (value : Bool) :
    mock.afterCall (.setButton buttonNumber value) =
      if 1 ≤ buttonNumber ∧ buttonNumber ≤ 10 then
        { mock with buttons := mock.buttons.setIfInBounds buttonNumber.toNat value }
      else mock := by
  by_cases inRange : 1 ≤ buttonNumber ∧ buttonNumber ≤ 10 <;>
    simp [afterCall, perform, setButton, inRange]

/-- A vector that is given one of its entries at a number that is in range. -/
theorem getD_setIfInBounds {α : Type*} {n index : Nat} (values : Vector α n) {number : ℤ}
    (value other : α) (positive : 1 ≤ number) (within : index < n) :
    (values.setIfInBounds number.toNat value)[index]?.getD other =
      if number = index then value else values[index]?.getD other := by
  rw [Vector.getElem?_setIfInBounds]
  by_cases here : number = index
  · have same : number.toNat = index := by omega
    rw [if_pos same, if_pos here, if_pos (same ▸ within), Option.getD_some]
  · have apart : number.toNat ≠ index := by omega
    rw [if_neg apart, if_neg here]

theorem afterCall_button (mock : JoystickMock K) (call : Call K) {counter : Fin 11}
    (inLoop : counter ∈ buttonCounters) :
    (mock.afterCall call).getRawButton counter =
      (call.button counter).getD (mock.getRawButton counter) := by
  have range : ∀ counter ∈ buttonCounters, 1 ≤ counter.val ∧ counter.val ≤ 10 := by decide
  obtain ⟨least, most⟩ := range counter inLoop
  cases call with
  | setJoystick joystickNumber value =>
      rw [afterCall_setJoystick]
      split <;> rfl
  | setButton buttonNumber value =>
      rw [afterCall_setButton, Call.button]
      split
      · rename_i inRange
        rw [getRawButton, getD_setIfInBounds _ _ _ inRange.1 counter.isLt]
        split <;> rfl
      · have apart : buttonNumber ≠ counter.val := by omega
        rw [if_neg apart, Option.getD_none]

variable [Zero K]

theorem afterCall_axis (mock : JoystickMock K) (call : Call K) {counter : Fin 16}
    (inLoop : counter ∈ axisCounters) :
    (mock.afterCall call).getRawAxis (counter - 10) =
      (call.axis (counter - 10)).getD (mock.getRawAxis (counter - 10)) := by
  have range : ∀ counter ∈ axisCounters, 1 ≤ counter.val - 10 ∧ counter.val - 10 ≤ 5 := by decide
  obtain ⟨least, most⟩ := range counter inLoop
  generalize counter.val - 10 = axis at least most ⊢
  cases call with
  | setButton buttonNumber value =>
      rw [afterCall_setButton]
      split <;> rfl
  | setJoystick joystickNumber value =>
      rw [afterCall_setJoystick, Call.axis]
      split
      · rename_i inRange
        have within : axis < 16 := by omega
        rw [getRawAxis, getD_setIfInBounds _ _ _ inRange.1 within]
        split <;> rfl
      · have apart : joystickNumber ≠ axis := by omega
        rw [if_neg apart, Option.getD_none]

/-- The control that is read so is left alone by the calls among the actions. -/
def Untouched {ν : Type*} (actions : List (Action K)) (writes : Call K → Option ν) : Prop :=
  ∀ call, .call call ∈ actions → writes call = none

omit [Zero K] in
/-- A control that nobody touches during a poll shows what it showed before. -/
theorem Showed.untouched {ν : Type*} {mock : JoystickMock K} {actions : List (Action K)}
    {read : JoystickMock K → ν} {writes : Call K → Option ν} {value : ν}
    (showed : Showed mock actions read value)
    (written : ∀ mock call, read (afterCall mock call) = (writes call).getD (read mock))
    (untouched : Untouched actions writes) : value = read mock := by
  obtain ⟨before, early, rfl⟩ := showed
  have quiet : Untouched before writes := fun call member => untouched call (early.mem member)
  clear early untouched
  induction before generalizing mock with
  | nil => rfl
  | cons action rest ih =>
      have later := fun call member => quiet call (List.mem_cons_of_mem _ member)
      cases action with
      | call call =>
          have kept : _ = read (mock.afterCall call) := ih later
          rw [written, quiet call (List.mem_cons_self ..), Option.getD_none] at kept
          exact kept
      | read => exact ih later

omit [Zero K] in
theorem foldl_afterCall {ν : Type*} (read : JoystickMock K → ν) {writes : Call K → Option ν}
    (written : ∀ mock call, read (afterCall mock call) = (writes call).getD (read mock))
    (mock : JoystickMock K) (calls : List (Call K)) :
    read (calls.foldl afterCall mock) = lastValue writes (read mock) calls := by
  induction calls generalizing mock with
  | nil => rfl
  | cons call rest ih => rw [List.foldl_cons, ih, written, lastValue_cons]

omit [Zero K] in
theorem getRawBool_eq {key : Listenable} {counter : Fin 11} (inLoop : counter ∈ buttonCounters)
    (names : key.value = counter ∨ key.value = counter + 20) (values : ControlValues K) :
    getRawBool values key = some (values.buttonAt counter) := by
  have range : ∀ counter ∈ buttonCounters, 1 ≤ counter.val ∧ counter.val ≤ 10 := by decide
  obtain ⟨least, most⟩ := range counter inLoop
  have entry : values.buttonValues[counter.val]? = some (values.buttonAt counter) :=
    Vector.getElem?_eq_getElem counter.isLt
  rcases names with down | up
  · rw [getRawBool, down, if_pos ⟨least, most⟩, entry]
  · have notDown : ¬(Listenable.aDown.value ≤ counter.val + 20 ∧
        counter.val + 20 ≤ Listenable.r3Down.value) := by
      simp only [Listenable.value]
      omega
    have isUp : Listenable.aUp.value ≤ counter.val + 20 ∧
        counter.val + 20 ≤ Listenable.r3Up.value := by
      simp only [Listenable.value]
      omega
    rw [getRawBool, up, if_neg notDown, if_pos isUp, Nat.add_sub_cancel, entry]

omit [Zero K] in
theorem getRawDouble_eq {key : Listenable} {counter : Fin 16} (inLoop : counter ∈ axisCounters)
    (names : key.value = counter) (values : ControlValues K) :
    getRawDouble values key = some (values.axisAt counter) := by
  have range : ∀ counter ∈ axisCounters, Listenable.joy1X.value ≤ counter.val ∧
      counter.val ≤ Listenable.joy2Y.value := by decide
  rw [getRawDouble, names, if_pos (range counter inLoop)]
  exact Vector.getElem?_eq_getElem counter.isLt

/-- A control that a test has set and leaves alone while it is polled is read back,
by any of its keys, as it has been set last; calls with numbers out of range do not
count. -/
theorem values_retrieved (script : List (Call K)) {actions : List (Action K)} {last : Poll K}
    (taken : run step (beginPoll (script.foldl afterCall construct)) actions = some last)
    (complete : last.Complete) :
    (∀ key : Listenable, ∀ counter ∈ buttonCounters,
      (key.value = counter ∨ key.value = counter + 20) →
      Untouched actions (fun call => call.button counter) →
      getRawBool last.newValues key =
        some (lastValue (fun call => call.button counter) false script)) ∧
    ∀ key : Listenable, ∀ counter ∈ axisCounters, key.value = counter →
      Untouched actions (fun call => call.axis (counter - 10)) →
      getRawDouble last.newValues key =
        some (lastValue (fun call => call.axis (counter - 10)) 0 script) := by
  have sampled := (sampled_begin (script.foldl afterCall construct)).run taken
  obtain ⟨noButtons, noAxes⟩ := complete
  constructor
  · intro key counter inLoop names untouched
    have written := fun mock call => afterCall_button (K := K) mock call inLoop
    have showed := sampled.readButtons counter inLoop (by simp [noButtons])
    rw [getRawBool_eq inLoop names, showed.untouched written untouched,
      foldl_afterCall (fun mock => mock.getRawButton counter) written]
    have released : (construct : JoystickMock K).getRawButton counter = false := by
      simp [construct, getRawButton]
    rw [released]
  · intro key counter inLoop names untouched
    have written := fun mock call => afterCall_axis (K := K) mock call inLoop
    have showed := sampled.readAxes counter inLoop (by simp [noAxes])
    rw [getRawDouble_eq inLoop names, showed.untouched written untouched,
      foldl_afterCall (fun mock => mock.getRawAxis (counter - 10)) written]
    have centred : (construct : JoystickMock K).getRawAxis (counter - 10) = 0 := by
      rw [getRawAxis, construct, Vector.getElem?_replicate]
      split <;> rfl
    rw [centred]

end Retrieval

theorem values_retrieved_triggers : ∃ last : Poll ℚ,
    getRawDouble last.newValues .triggers = some (5 / 2) := by
  obtain ⟨last, taken, complete, _⟩ := run_reads
  have retrieved := (values_retrieved script taken complete).2 .triggers 13 (by decide) rfl
    (by simp [Untouched, reads, Call.axis])
  exact ⟨last, retrieved⟩

end JoystickMock

end FrcRobot
