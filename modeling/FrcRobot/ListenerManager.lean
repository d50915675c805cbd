import FrcRobot.Literals
import Mathlib.Data.Finset.Dedup
import Mathlib.Data.Finset.Union
import Mathlib.Data.Fintype.Basic

set_option autoImplicit false

namespace FrcRobot

/-- Everything that can be read from the controller. -/
inductive Listenable where
  | aDown | bDown | xDown | yDown | lbDown | rbDown | backDown | startDown | l3Down | r3Down
  | joy1X | joy2X | triggers | joy1Y | joy2Y
  | aUp | bUp | xUp | yUp | lbUp | rbUp | backUp | startUp | l3Up | r3Up
  deriving DecidableEq, Repr

/-- The number the source gives each enumerator. -/
def Listenable.value : Listenable → Nat
  | .aDown => 1 | .bDown => 2 | .xDown => 3 | .yDown => 4 | .lbDown => 5
  | .rbDown => 6 | .backDown => 7 | .startDown => 8 | .l3Down => 9 | .r3Down => 10
  | .joy1X => 11 | .joy2X => 12 | .triggers => 13 | .joy1Y => 14 | .joy2Y => 15
  | .aUp => 21 | .bUp => 22 | .xUp => 23 | .yUp => 24 | .lbUp => 25
  | .rbUp => 26 | .backUp => 27 | .startUp => 28 | .l3Up => 29 | .r3Up => 30

/-- One reading of the controller hardware. -/
structure Joystick (K : Type*) where
  getRawButton : Nat → Bool
  getRawAxis : Nat → K

/-- The two value vectors a ListenerManager keeps; the entries below the first
enumerator of each range are never read. -/
structure ControlValues (K : Type*) where
  buttonValues : Vector Bool 11
  joystickValues : Vector K 16
  deriving DecidableEq

namespace ControlValues

variable {K : Type*}

/-- The entry of a button's counter, and that of an axis's. -/
def buttonAt (values : ControlValues K) (counter : Fin 11) : Bool :=
  values.buttonValues[counter.val]

def axisAt (values : ControlValues K) (counter : Fin 16) : K :=
  values.joystickValues[counter.val]

def setAxis (values : ControlValues K) (counter : Fin 16) (value : K) : ControlValues K :=
  { values with joystickValues := values.joystickValues.set counter value }

def setButton (values : ControlValues K) (counter : Fin 11) (value : Bool) : ControlValues K :=
  { values with buttonValues := values.buttonValues.set counter value }

@[simp] theorem setAxis_axisAt (values : ControlValues K) (counter axis : Fin 16) (value : K) :
    (values.setAxis counter value).axisAt axis =
      if counter = axis then value else values.axisAt axis := by
  simp only [axisAt, setAxis, Vector.getElem_set, Fin.val_inj]

end ControlValues

namespace ListenerManager

variable {K L : Type*}

/-- The counters of the loops from ADOWN to R3DOWN and from JOY1X to JOY2Y. -/
def buttonCounters : List (Fin 11) := [1, 2, 3, 4, 5, 6, 7, 8, 9, 10]

def axisCounters : List (Fin 16) := [11, 12, 13, 14, 15]

/-- Assigns the given value to each counter's entry, in the loop's order. -/
def assignEach {α : Type*} {n : Nat} (read : Fin n → α) (counters : List (Fin n))
    (values : Vector α n) : Vector α n :=
  counters.foldl (fun values (counter : Fin n) => values.set counter (read counter)) values

theorem assignEach_get {α : Type*} {n : Nat} (read : Fin n → α) (counters : List (Fin n))
    (values : Vector α n) (index : Fin n) :
    (assignEach read counters values)[index.val] =
      if index ∈ counters then read index else values[index.val] := by
  induction counters generalizing values with
  | nil => simp [assignEach]
  | cons counter rest ih =>
      have later := ih (values.set counter (read counter))
      change (assignEach read rest (values.set counter (read counter)))[index.val] = _
      rw [later]
      by_cases inRest : index ∈ rest
      · simp [inRest]
      · by_cases here : index = counter
        · subst here
          simp [inRest]
        · have apart : counter.val ≠ index.val := fun same => here (Fin.ext same.symm)
          simp [inRest, here, apart]

section Poll

variable [Zero K]

def initialValues : ControlValues K where
  buttonValues := Vector.replicate 11 false
  joystickValues := Vector.replicate 16 0

@[simp] theorem initialValues_buttonAt (counter : Fin 11) :
    (initialValues : ControlValues K).buttonAt counter = false := by
  simp [initialValues, ControlValues.buttonAt]

@[simp] theorem initialValues_axisAt (counter : Fin 16) :
    (initialValues : ControlValues K).axisAt counter = 0 := by
  simp [initialValues, ControlValues.axisAt]

def pollControls (joystick : Joystick K) : ControlValues K where
  buttonValues := assignEach (fun counter => joystick.getRawButton counter)
    buttonCounters (Vector.replicate 11 false)
  joystickValues := assignEach (fun counter => joystick.getRawAxis (counter - 10))
    axisCounters (Vector.replicate 16 0)

theorem pollControls_button (joystick : Joystick K) {counter : Fin 11}
    (inLoop : counter ∈ buttonCounters) :
    (pollControls joystick).buttonAt counter = joystick.getRawButton counter := by
  simp only [ControlValues.buttonAt, pollControls, assignEach_get, inLoop, ↓reduceIte]

theorem pollControls_axis (joystick : Joystick K) {counter : Fin 16}
    (inLoop : counter ∈ axisCounters) :
    (pollControls joystick).axisAt counter = joystick.getRawAxis (counter.val - 10) := by
  simp only [ControlValues.axisAt, pollControls, assignEach_get, inLoop, ↓reduceIte]

end Poll

/-- The published value of a button, by either of its keys; reading anything else
throws. -/
def getRawBool (values : ControlValues K) (listenable : Listenable) : Option Bool :=
  if Listenable.aDown.value ≤ listenable.value ∧ listenable.value ≤ Listenable.r3Down.value then
    values.buttonValues[listenable.value]?
  else if Listenable.aUp.value ≤ listenable.value ∧ listenable.value ≤ Listenable.r3Up.value then
    values.buttonValues[listenable.value - 20]?
  else none

/-- The published value of an axis; reading anything else throws. -/
def getRawDouble (values : ControlValues K) (listenable : Listenable) : Option K :=
  if Listenable.joy1X.value ≤ listenable.value ∧ listenable.value ≤ Listenable.joy2Y.value then
    values.joystickValues[listenable.value]?
  else none

@[simp] theorem getRawDouble_joy1X (values : ControlValues K) :
    getRawDouble values .joy1X = some (values.axisAt 11) := rfl

@[simp] theorem getRawDouble_joy1Y (values : ControlValues K) :
    getRawDouble values .joy1Y = some (values.axisAt 14) := rfl

/-- The registered listeners: any number for a key, and any key for a listener.
A listener stands for the shared pointer, so equal listeners are one object. -/
abbrev ListenerMap (L : Type*) := Multiset (Listenable × L)

def addListener (listeners : ListenerMap L) (key : Listenable) (listener : L) : ListenerMap L :=
  (key, listener) ::ₘ listeners

def removeAllListeners (_listeners : ListenerMap L) : ListenerMap L := 0

def removeAllListenersForControl (listeners : ListenerMap L) (control : Listenable) :
    ListenerMap L :=
  listeners.filter fun entry => entry.1 ≠ control

section Cycle

variable [DecidableEq K] [DecidableEq L]

/-- The listeners `equal_range` finds for a counter cast to a Listenable. -/
def equalRange (listeners : ListenerMap L) (code : Nat) : Finset L :=
  ((listeners.filter fun entry => entry.1.value = code).map Prod.snd).toFinset

/-- What the body of the loop over the buttons inserts. Both of its tests are
written as in the source. -/
def buttonListeners (listeners : ListenerMap L) (values newValues : ControlValues K)
    (counter : Fin 11) : Finset L :=
  (if !values.buttonAt counter && newValues.buttonAt counter then
    equalRange listeners counter else ∅) ∪
  (if !values.buttonAt counter && newValues.buttonAt counter then
    equalRange listeners (counter + 20) else ∅)

/-- What the body of the loop over the axes inserts. -/
def axisListeners (listeners : ListenerMap L) (values newValues : ControlValues K)
    (counter : Fin 16) : Finset L :=
  if values.axisAt counter ≠ newValues.axisAt counter then
    equalRange listeners counter else ∅

def listenersToInvoke (listeners : ListenerMap L) (values newValues : ControlValues K) :
    Finset L :=
  axisCounters.foldl (fun found counter => found ∪ axisListeners listeners values newValues counter)
    (buttonCounters.foldl
      (fun found counter => found ∪ buttonListeners listeners values newValues counter) ∅)

/-- One turn of the polling loop: the values it publishes and the set of
listeners it then invokes. Nothing happens when no value has changed. -/
def cycle (listeners : ListenerMap L) (values newValues : ControlValues K) :
    ControlValues K × Finset L :=
  if newValues.buttonValues ≠ values.buttonValues ∨
      newValues.joystickValues ≠ values.joystickValues then
    (newValues, listenersToInvoke listeners values newValues)
  else (values, ∅)

end Cycle

end ListenerManager

end FrcRobot
