import FrcRobot.AutoConfig
import FrcRobot.ListenerManager

set_option autoImplicit false

namespace FrcRobot

open ListenerManager (ListenerMap addListener removeAllListeners)

/-- The calls that initializeTeleop binds to controls. -/
inductive BoundCall where
  | gyroReset
  | cockArmCancel
  | cockArmStart
  | stopArmCock
  | startArmCock
  | setSpeed (motor : Motor) (pow : ℚ)
  | steer
  deriving DecidableEq

/-- What MakeShared returns: every call of it allocates an object of its own. -/
structure SharedCmd where
  address : Nat
  call : BoundCall
  deriving DecidableEq

inductive RelayValue where
  | kForward | kReverse
  deriving DecidableEq

/-- The part of Global, and of the Options, that the mode callbacks touch. A
relay has a value once it has been set; the threads that run the autonomous
sequence are detached, so nobody else knows them. -/
structure Global where
  alliance : Alliance
  redLights : Option RelayValue
  blueLights : Option RelayValue
  speedControls : List (Motor × ℚ)
  listeners : ListenerMap SharedCmd
  allocated : Nat
  sequences : List AutoConfig.Sequence

namespace Global

/-- The alliance that is asked for is ignored. -/
def lightChange (global : Global) (_alliance : Alliance) : Global :=
  match global.alliance with
  | .blue => { global with redLights := some .kReverse, blueLights := some .kForward }
  | .red => { global with redLights := some .kForward, blueLights := some .kReverse }

def startSpeedControl (global : Global) (motor : Motor) (target : ℚ) : Global :=
  { global with speedControls := global.speedControls ++ [(motor, target)] }

def lightsOff (global : Global) : Global :=
  { global with redLights := some .kReverse, blueLights := some .kReverse }

def initializeRobot (global : Global) : Global :=
  ((global.lightsOff.startSpeedControl .rotBk 90).startSpeedControl .rotFL 90).startSpeedControl
    .rotFR 90

def initializeDisabled (global : Global) : Global := global.lightsOff

def initializeAuto (global : Global) : Global :=
  { global with sequences := global.sequences ++ [AutoConfig.Sequence.start] }

def clearListeners (global : Global) : Global :=
  { global with listeners := removeAllListeners global.listeners }

/-- Registers a command that is made on the spot. -/
def bind (global : Global) (binding : Listenable × BoundCall) : Global :=
  { global with
    listeners := addListener global.listeners binding.1 ⟨global.allocated, binding.2⟩
    allocated := global.allocated + 1 }

def teleopBindings : List (Listenable × BoundCall) := [
  (.xDown, .gyroReset),
  (.aDown, .cockArmCancel), (.aDown, .setSpeed .mShooter (-1)),
  (.aUp, .cockArmStart), (.aUp, .setSpeed .mShooter 0),
  (.bDown, .cockArmCancel), (.bDown, .setSpeed .mShooter (-1)),
  (.bUp, .cockArmStart), (.bUp, .setSpeed .mShooter 0),
  (.lbDown, .setSpeed .mArmMove (1 / 10)), (.lbDown, .setSpeed .mArmRoll (1 / 10)),
  (.rbDown, .setSpeed .mArmMove (-1 / 10)), (.rbDown, .setSpeed .mArmRoll (-1 / 10)),
  (.backDown, .stopArmCock),
  (.startDown, .startArmCock),
  (.joy1X, .steer), (.joy1Y, .steer)]

def initializeTeleop (global : Global) : Global :=
  teleopBindings.foldl bind (global.lightChange global.alliance)

/-- What is bound to which control, the objects apart. -/
def boundCalls (listeners : ListenerMap SharedCmd) : Multiset (Listenable × BoundCall) :=
  listeners.map fun entry => (entry.1, entry.2.call)

def addresses (listeners : ListenerMap SharedCmd) : Multiset Nat :=
  listeners.map fun entry => entry.2.address

/-- No two registrations share an object, and a new object is none of theirs. -/
structure Distinct (global : Global) : Prop where
  nodup : (addresses global.listeners).Nodup
  allocated : ∀ address ∈ addresses global.listeners, address < global.allocated

theorem distinct_of_empty {global : Global} (empty : global.listeners = 0) : Distinct global := by
  constructor
  · rw [empty]
    exact Multiset.nodup_zero
  · intro address member
    rw [empty] at member
    exact absurd member (Multiset.notMem_zero address)

theorem Distinct.bind {global : Global} (distinct : Distinct global)
    (binding : Listenable × BoundCall) : Distinct (global.bind binding) := by
  have grown : addresses (global.bind binding).listeners =
      global.allocated ::ₘ addresses global.listeners := Multiset.map_cons ..
  constructor
  · rw [grown]
    apply Multiset.nodup_cons.mpr
    refine ⟨?_, distinct.nodup⟩
    intro member
    exact absurd (distinct.allocated _ member) (Nat.lt_irrefl _)
  · intro address member
    rw [grown] at member
    show address < global.allocated + 1
    rcases Multiset.mem_cons.mp member with here | there
    · omega
    · have below := distinct.allocated address there
      omega

theorem foldl_bind (bindings : List (Listenable × BoundCall)) (global : Global)
    (distinct : Distinct global) :
    Distinct (bindings.foldl bind global) ∧
      boundCalls (bindings.foldl bind global).listeners =
        (bindings : Multiset _) + boundCalls global.listeners := by
  induction bindings generalizing global with
  | nil => exact ⟨distinct, (zero_add _).symm⟩
  | cons binding rest ih =>
      obtain ⟨later, calls⟩ := ih (global.bind binding) (distinct.bind binding)
      refine ⟨later, ?_⟩
      have here : boundCalls (global.bind binding).listeners =
          binding ::ₘ boundCalls global.listeners := Multiset.map_cons ..
      rw [List.foldl_cons, calls, here, ← Multiset.cons_coe, Multiset.add_cons,
        Multiset.cons_add]

theorem teleopBindings_nodup : teleopBindings.Nodup := by decide

@[simp] theorem lightChange_listeners (global : Global) (alliance : Alliance) :
    (global.lightChange alliance).listeners = global.listeners := by
  unfold lightChange
  split <;> rfl

@[simp] theorem lightChange_sequences (global : Global) (alliance : Alliance) :
    (global.lightChange alliance).sequences = global.sequences := by
  unfold lightChange
  split <;> rfl

@[simp] theorem initializeTeleop_sequences (global : Global) :
    global.initializeTeleop.sequences = global.sequences := by
  have kept : ∀ bindings : List (Listenable × BoundCall), ∀ start : Global,
      (bindings.foldl bind start).sequences = start.sequences := by
    intro bindings
    induction bindings with
    | nil => exact fun _ => rfl
    | cons binding rest ih => exact fun start => ih (start.bind binding)
  unfold initializeTeleop
  rw [kept, lightChange_sequences]

/-- Each binding stands in the table once, with an object of its own. -/
structure HoldsExactly (listeners : ListenerMap SharedCmd)
    (bindings : List (Listenable × BoundCall)) : Prop where
  calls : boundCalls listeners = bindings
  once : ∀ binding ∈ bindings, (boundCalls listeners).count binding = 1
  distinct : (addresses listeners).Nodup

theorem initializeTeleop_holdsExactly {global : Global} (empty : global.listeners = 0) :
    HoldsExactly global.initializeTeleop.listeners teleopBindings := by
  have start : (global.lightChange global.alliance).listeners = 0 := by
    rw [lightChange_listeners, empty]
  obtain ⟨distinct, calls⟩ := foldl_bind teleopBindings _ (distinct_of_empty start)
  have same : boundCalls global.initializeTeleop.listeners = teleopBindings := by
    refine calls.trans ?_
    rw [start]
    exact add_zero _
  refine ⟨same, ?_, distinct.nodup⟩
  intro binding member
  rw [same]
  exact Multiset.count_eq_one_of_mem (Multiset.coe_nodup.mpr teleopBindings_nodup) member

end Global

end FrcRobot
