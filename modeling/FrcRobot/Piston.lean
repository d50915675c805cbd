import Mathlib.Logic.Function.Basic

set_option autoImplicit false

namespace FrcRobot

/-- A piston with the two solenoids that control it. -/
structure Piston (σ : Type*) where
  solA : σ
  solB : σ
  inversion : Bool

namespace Piston

section Source

variable {σ : Type*} [DecidableEq σ]

def construct (solA solB : σ) : Piston σ := ⟨solA, solB, false⟩

/-- Two Set calls, one after the other. -/
def set (piston : Piston σ) (solenoids : σ → Bool) (solStateA solStateB : Bool) : σ → Bool :=
  Function.update (Function.update solenoids piston.solA solStateA) piston.solB solStateB

/-- The constructor that sets the solenoids too. -/
def constructSet (solA solB : σ) (solStateA solStateB : Bool) (solenoids : σ → Bool) :
    Piston σ × (σ → Bool) :=
  (construct solA solB, (construct solA solB).set solenoids solStateA solStateB)

def invertPiston (piston : Piston σ) : Piston σ := { piston with inversion := !piston.inversion }

def lockPiston (piston : Piston σ) (solenoids : σ → Bool) : σ → Bool :=
  piston.set solenoids true true

def unlockPiston (piston : Piston σ) (solenoids : σ → Bool) : σ → Bool :=
  piston.set solenoids false false

def setPistonOn (piston : Piston σ) (solenoids : σ → Bool) : σ → Bool :=
  piston.set solenoids (true ^^ piston.inversion) (false ^^ piston.inversion)

def setPistonOff (piston : Piston σ) (solenoids : σ → Bool) : σ → Bool :=
  piston.set solenoids (false ^^ piston.inversion) (true ^^ piston.inversion)

/-- The second solenoid is read after the first has been set. -/
def invertSolenoids (piston : Piston σ) (solenoids : σ → Bool) : σ → Bool :=
  let setA := Function.update solenoids piston.solA (!solenoids piston.solA)
  Function.update setA piston.solB (!setA piston.solB)

/-- The constructors make a new piston of the same solenoids. -/
inductive Operation where
  | construct
  | constructSet (solStateA solStateB : Bool)
  | invertPiston
  | lockPiston
  | unlockPiston
  | setPistonOn
  | setPistonOff
  | invertSolenoids

end Source

/- What a piston is for. -/
section Cylinder

/-- Pressed on from both sides or from none, or driven one way. -/
inductive Position where
  | locked
  | unlocked
  | forward
  | backward
  deriving DecidableEq

def Position.opposite : Position → Position
  | .locked => .unlocked
  | .unlocked => .locked
  | .forward => .backward
  | .backward => .forward

def Position.ofValves : Bool → Bool → Position
  | true, true => .locked
  | false, false => .unlocked
  | true, false => .forward
  | false, true => .backward

structure Cylinder where
  position : Position
  inverted : Bool
  deriving DecidableEq

def Cylinder.perform (cylinder : Cylinder) : Operation → Cylinder
  | .construct => { cylinder with inverted := false }
  | .constructSet solStateA solStateB => ⟨.ofValves solStateA solStateB, false⟩
  | .invertPiston => { cylinder with inverted := !cylinder.inverted }
  | .lockPiston => { cylinder with position := .locked }
  | .unlockPiston => { cylinder with position := .unlocked }
  | .setPistonOn =>
      { cylinder with position := if cylinder.inverted then .backward else .forward }
  | .setPistonOff =>
      { cylinder with position := if cylinder.inverted then .forward else .backward }
  | .invertSolenoids => { cylinder with position := cylinder.position.opposite }

end Cylinder

/-- Any number of pistons, and the states of all solenoids. -/
structure Bank (ι σ : Type*) where
  pistons : ι → Piston σ
  solenoids : σ → Bool

namespace Bank

variable {ι σ : Type*}

section Source

variable [DecidableEq ι] [DecidableEq σ]

def withPiston (bank : Bank ι σ) (index : ι) (piston : Piston σ) : Bank ι σ :=
  { bank with pistons := Function.update bank.pistons index piston }

def perform (bank : Bank ι σ) (entry : ι × Operation) : Bank ι σ :=
  let piston := bank.pistons entry.1
  match entry.2 with
  | .construct => bank.withPiston entry.1 (Piston.construct piston.solA piston.solB)
  | .constructSet solStateA solStateB =>
      let built := Piston.constructSet piston.solA piston.solB solStateA solStateB bank.solenoids
      { bank.withPiston entry.1 built.1 with solenoids := built.2 }
  | .invertPiston => bank.withPiston entry.1 piston.invertPiston
  | .lockPiston => { bank with solenoids := piston.lockPiston bank.solenoids }
  | .unlockPiston => { bank with solenoids := piston.unlockPiston bank.solenoids }
  | .setPistonOn => { bank with solenoids := piston.setPistonOn bank.solenoids }
  | .setPistonOff => { bank with solenoids := piston.setPistonOff bank.solenoids }
  | .invertSolenoids => { bank with solenoids := piston.invertSolenoids bank.solenoids }

def run (bank : Bank ι σ) (entries : List (ι × Operation)) : Bank ι σ := entries.foldl perform bank

end Source

/-- The piston that an index stands for, as its solenoids have it. -/
def cylinder (bank : Bank ι σ) (index : ι) : Cylinder :=
  let piston := bank.pistons index
  ⟨.ofValves (bank.solenoids piston.solA) (bank.solenoids piston.solB), piston.inversion⟩

/-- The solenoid on one of the two sides of a piston. -/
def solenoid (bank : Bank ι σ) (side : ι × Bool) : σ :=
  if side.2 then (bank.pistons side.1).solB else (bank.pistons side.1).solA

/-- The operations of one of the pistons. -/
def own [DecidableEq ι] (index : ι) (entries : List (ι × Operation)) : List Operation :=
  entries.filterMap fun entry => if entry.1 = index then some entry.2 else none

/-- Each piston moves as if it were alone. -/
def Independent [DecidableEq ι] [DecidableEq σ] (bank : Bank ι σ) : Prop :=
  ∀ entries index, (bank.run entries).cylinder index =
    (own index entries).foldl Cylinder.perform (bank.cylinder index)

/-- No two sides of pistons share a solenoid. -/
def Separate (bank : Bank ι σ) : Prop := Function.Injective bank.solenoid

section Wiring

variable {bank : Bank ι σ}

theorem Separate.sides (separate : Separate bank) (index : ι) :
    (bank.pistons index).solA ≠ (bank.pistons index).solB := by
  intro same
  have sides : (index, false) = (index, true) := separate same
  cases sides

theorem Separate.other (separate : Separate bank) {index other : ι} (apart : other ≠ index) :
    ∀ side, bank.solenoid (other, side) ≠ (bank.pistons index).solA ∧
      bank.solenoid (other, side) ≠ (bank.pistons index).solB := by
  intro side
  constructor
  · intro same
    have sides : (other, side) = (index, false) := separate same
    exact apart (congrArg Prod.fst sides)
  · intro same
    have sides : (other, side) = (index, true) := separate same
    exact apart (congrArg Prod.fst sides)

section Pistons

variable [DecidableEq ι]

theorem withPiston_pistons (bank : Bank ι σ) (index other : ι) (piston : Piston σ) :
    (bank.withPiston index piston).pistons other =
      if other = index then piston else bank.pistons other :=
  Function.update_apply ..

/-- A piston may be exchanged for one with the same solenoids. -/
theorem withPiston_solenoid {index : ι} (piston : Piston σ)
    (sameA : piston.solA = (bank.pistons index).solA)
    (sameB : piston.solB = (bank.pistons index).solB) :
    (bank.withPiston index piston).solenoid = bank.solenoid := by
  funext side
  unfold solenoid
  rw [withPiston_pistons]
  by_cases same : side.1 = index
  · rw [if_pos same, same, sameA, sameB]
  · rw [if_neg same]

theorem withPiston_cylinder {index : ι} (piston : Piston σ)
    (sameA : piston.solA = (bank.pistons index).solA)
    (sameB : piston.solB = (bank.pistons index).solB) (other : ι) :
    (bank.withPiston index piston).cylinder other =
      if index = other then { bank.cylinder other with inverted := piston.inversion }
      else bank.cylinder other := by
  simp only [cylinder, withPiston_pistons]
  by_cases same : index = other
  · subst same
    rw [if_pos rfl, if_pos rfl, sameA, sameB]
    rfl
  · rw [if_neg same, if_neg (Ne.symm same)]
    rfl

end Pistons

section Solenoids

variable [DecidableEq σ]

theorem set_solA {piston : Piston σ} (sides : piston.solA ≠ piston.solB) (solenoids : σ → Bool)
    (solStateA solStateB : Bool) :
    piston.set solenoids solStateA solStateB piston.solA = solStateA := by
  rw [set, Function.update_of_ne sides, Function.update_self]

theorem set_solB (piston : Piston σ) (solenoids : σ → Bool) (solStateA solStateB : Bool) :
    piston.set solenoids solStateA solStateB piston.solB = solStateB :=
  Function.update_self ..

theorem set_same_solA (piston : Piston σ) (solenoids : σ → Bool) (solState : Bool) :
    piston.set solenoids solState solState piston.solA = solState := by
  by_cases same : piston.solA = piston.solB
  · rw [same, set_solB]
  · exact set_solA same solenoids solState solState

theorem set_of_ne {piston : Piston σ} {solenoid : σ} (notA : solenoid ≠ piston.solA)
    (notB : solenoid ≠ piston.solB) (solenoids : σ → Bool) (solStateA solStateB : Bool) :
    piston.set solenoids solStateA solStateB solenoid = solenoids solenoid := by
  rw [set, Function.update_of_ne notB, Function.update_of_ne notA]

theorem invertSolenoids_eq {piston : Piston σ} (sides : piston.solA ≠ piston.solB)
    (solenoids : σ → Bool) : piston.invertSolenoids solenoids =
      piston.set solenoids (!solenoids piston.solA) (!solenoids piston.solB) := by
  unfold invertSolenoids set
  dsimp only
  rw [Function.update_of_ne (Ne.symm sides)]

theorem ofValves_driven (inverted : Bool) :
    Position.ofValves (true ^^ inverted) (false ^^ inverted) =
      if inverted then .backward else .forward := by
  cases inverted <;> rfl

theorem ofValves_released (inverted : Bool) :
    Position.ofValves (false ^^ inverted) (true ^^ inverted) =
      if inverted then .forward else .backward := by
  cases inverted <;> rfl

theorem ofValves_locked {valveA valveB : Bool}
    (locked : Position.ofValves valveA valveB = .locked) : valveA = true ∧ valveB = true := by
  cases valveA <;> cases valveB <;> first | exact ⟨rfl, rfl⟩ | cases locked

theorem ofValves_not (valveA valveB : Bool) :
    Position.ofValves (!valveA) (!valveB) = (Position.ofValves valveA valveB).opposite := by
  cases valveA <;> cases valveB <;> rfl

end Solenoids

section Run

variable [DecidableEq ι] [DecidableEq σ]

/-- Its solenoids are a piston's own. -/
theorem cylinder_set (separate : Separate bank) (index other : ι) (solStateA solStateB : Bool) :
    cylinder { bank with
        solenoids := (bank.pistons index).set bank.solenoids solStateA solStateB } other =
      if index = other then
        ⟨.ofValves solStateA solStateB, (bank.pistons index).inversion⟩
      else bank.cylinder other := by
  split
  · rename_i same
    subst same
    simp only [cylinder, set_solA (separate.sides index), set_solB]
  · rename_i apart
    obtain ⟨leftA, leftB⟩ := separate.other (Ne.symm apart) false
    obtain ⟨rightA, rightB⟩ := separate.other (Ne.symm apart) true
    simp only [solenoid, Bool.false_eq_true, ↓reduceIte] at leftA leftB rightA rightB
    simp only [cylinder, set_of_ne leftA leftB, set_of_ne rightA rightB]

theorem perform_solenoid (bank : Bank ι σ) (entry : ι × Operation) :
    (bank.perform entry).solenoid = bank.solenoid := by
  obtain ⟨index, operation⟩ := entry
  let built := Piston.construct (bank.pistons index).solA (bank.pistons index).solB
  cases operation with
  | construct | constructSet => exact withPiston_solenoid built rfl rfl
  | invertPiston => exact withPiston_solenoid (bank.pistons index).invertPiston rfl rfl
  | lockPiston | unlockPiston | setPistonOn | setPistonOff | invertSolenoids => rfl

/-- An operation moves its own piston, and only that. -/
theorem perform_cylinder (separate : Separate bank) (entry : ι × Operation) (other : ι) :
    (bank.perform entry).cylinder other =
      if entry.1 = other then (bank.cylinder other).perform entry.2 else bank.cylinder other := by
  obtain ⟨index, operation⟩ := entry
  let built := Piston.construct (bank.pistons index).solA (bank.pistons index).solB
  cases operation with
  | construct => exact withPiston_cylinder built rfl rfl other
  | constructSet solStateA solStateB =>
      have kept : Separate (bank.withPiston index built) := by
        unfold Separate
        rw [withPiston_solenoid built rfl rfl]
        exact separate
      have moved := cylinder_set kept index other solStateA solStateB
      rw [withPiston_pistons, if_pos rfl, withPiston_cylinder built rfl rfl] at moved
      refine Eq.trans moved ?_
      exact ite_congr rfl (fun _ => rfl) fun apart => if_neg apart
  | invertPiston =>
      refine (withPiston_cylinder (bank.pistons index).invertPiston rfl rfl other).trans ?_
      exact ite_congr rfl (fun same => same ▸ rfl) fun _ => rfl
  | lockPiston | unlockPiston =>
      refine (cylinder_set separate index other _ _).trans ?_
      exact ite_congr rfl (fun same => same ▸ rfl) fun _ => rfl
  | setPistonOn =>
      refine (cylinder_set separate index other _ _).trans ?_
      rw [ofValves_driven]
      exact ite_congr rfl (fun same => same ▸ rfl) fun _ => rfl
  | setPistonOff =>
      refine (cylinder_set separate index other _ _).trans ?_
      rw [ofValves_released]
      exact ite_congr rfl (fun same => same ▸ rfl) fun _ => rfl
  | invertSolenoids =>
      have moved := cylinder_set separate index other
        (!bank.solenoids (bank.pistons index).solA) (!bank.solenoids (bank.pistons index).solB)
      rw [← invertSolenoids_eq (separate.sides index), ofValves_not] at moved
      refine Eq.trans moved ?_
      exact ite_congr rfl (fun same => same ▸ rfl) fun _ => rfl

theorem own_cons (index : ι) (entry : ι × Operation) (rest : List (ι × Operation)) :
    own index (entry :: rest) =
      if entry.1 = index then entry.2 :: own index rest else own index rest := by
  unfold own
  rw [List.filterMap_cons]
  by_cases same : entry.1 = index
  · rw [if_pos same, if_pos same]
  · rw [if_neg same, if_neg same]

theorem Separate.run (separate : Separate bank) (entries : List (ι × Operation)) (index : ι) :
    (bank.run entries).cylinder index =
      (own index entries).foldl Cylinder.perform (bank.cylinder index) := by
  induction entries generalizing bank with
  | nil => rfl
  | cons entry rest ih =>
      have kept : Separate (bank.perform entry) := by
        unfold Separate
        rw [perform_solenoid]
        exact separate
      have later : (bank.run (entry :: rest)).cylinder index =
          ((bank.perform entry).run rest).cylinder index := rfl
      rw [later, ih kept, perform_cylinder separate, own_cons]
      split <;> rfl

/-- A piston with the same solenoid on both sides is not driven by setPistonOn. -/
theorem sides_of_independent (independent : Independent bank) (index : ι) :
    (bank.pistons index).solA ≠ (bank.pistons index).solB := by
  intro same
  have moved := congrArg Cylinder.position (independent [(index, .setPistonOn)] index)
  have alone : own index [(index, Operation.setPistonOn)] = [.setPistonOn] := by simp [own]
  rw [alone] at moved
  have shared : ((bank.run [(index, .setPistonOn)]).cylinder index).position =
      .ofValves (false ^^ (bank.pistons index).inversion)
        (false ^^ (bank.pistons index).inversion) := by
    simp [run, perform, setPistonOn, set, cylinder, same]
  rw [shared] at moved
  cases inverted : (bank.pistons index).inversion <;>
    simp [Cylinder.perform, cylinder, inverted, Position.ofValves] at moved

/-- Nor can a piston stay locked while another vents the solenoid they share. -/
theorem other_of_independent (independent : Independent bank) {index other : ι}
    (apart : index ≠ other) (side otherSide : Bool) :
    bank.solenoid (index, side) ≠ bank.solenoid (other, otherSide) := by
  intro same
  have moved := congrArg Cylinder.position
    (independent [(index, .lockPiston), (other, .unlockPiston)] index)
  have alone : own index [(index, Operation.lockPiston), (other, Operation.unlockPiston)] =
      [.lockPiston] := by
    simp [own, Ne.symm apart]
  rw [alone] at moved
  let last := bank.run [(index, .lockPiston), (other, .unlockPiston)]
  have held : last.solenoids (bank.solenoid (index, side)) = true := by
    obtain ⟨holdsA, holdsB⟩ := ofValves_locked moved
    cases side
    · exact holdsA
    · exact holdsB
  have vented : last.solenoids (bank.solenoid (other, otherSide)) = false := by
    cases otherSide
    · exact set_same_solA (bank.pistons other) _ false
    · exact set_solB (bank.pistons other) _ false false
  rw [same, vented] at held
  cases held

/-- Pistons move as if each were alone just if no two of their sides share a solenoid. -/
theorem independent_iff (bank : Bank ι σ) :
    Independent bank ↔ Separate bank := by
  constructor
  · intro independent
    rintro ⟨index, side⟩ ⟨other, otherSide⟩ same
    by_cases apart : index = other
    · subst apart
      have sides := sides_of_independent independent index
      cases side <;> cases otherSide
      · rfl
      · exact absurd same sides
      · exact absurd same.symm sides
      · rfl
    · exact absurd same (other_of_independent independent apart side otherSide)
  · exact fun separate => separate.run

end Run

end Wiring

end Bank

end Piston

end FrcRobot
