import FrcRobot.AngleDistance
import Mathlib.Algebra.BigOperators.Ring.Finset
import Mathlib.Algebra.Order.BigOperators.Group.Finset

set_option autoImplicit false

namespace FrcRobot

variable {K : Type*} [Field K]

/-- The potentiometer on a wheel: the analog channel it is read from, and the
angle at which its voltage is 0. -/
structure MagneticPotEncoder (K : Type*) where
  enc : Nat × Nat
  offset : K

namespace MagneticPotEncoder

def construct (offset : K) (a b : Nat) : MagneticPotEncoder K := ⟨(a, b), offset⟩

/-- The forwarding constructor, with its arguments where the source has them. -/
def constructForwarding (a b : Nat) : MagneticPotEncoder K := construct (a : K) b 0

/-- Its offset is only the 0 it is meant to be, and its channel the one it is
given, where both arguments are 0. -/
theorem constructForwarding_iff [CharZero K] (a b : Nat) :
    (constructForwarding a b : MagneticPotEncoder K) = construct 0 a b ↔ a = 0 ∧ b = 0 := by
  simp only [constructForwarding, construct, MagneticPotEncoder.mk.injEq, Prod.mk.injEq,
    Nat.cast_eq_zero]
  omega

/-- The voltage averaged over ten reads, which come one after the other. -/
def averageVoltage (readings : ℕ → K) : K :=
  (List.range 10).foldl (fun voltage i => voltage + readings i) 0 / 10

def getAngle (encoder : MagneticPotEncoder K) (readings : ℕ → K) : K :=
  averageVoltage readings / 5 * 360 + encoder.offset

/-- The angle that a voltage stands for. -/
def angleAt (encoder : MagneticPotEncoder K) (voltage : K) : K :=
  voltage / 5 * 360 + encoder.offset

theorem foldl_range_eq_sum (readings : ℕ → K) (n : ℕ) :
    (List.range n).foldl (fun voltage i => voltage + readings i) 0 =
      ∑ i ∈ Finset.range n, readings i := by
  induction n with
  | zero => rfl
  | succ n ih => rw [List.range_succ, List.foldl_append, ih, Finset.sum_range_succ]; rfl

theorem averageVoltage_eq (readings : ℕ → K) :
    averageVoltage readings = (∑ i ∈ Finset.range 10, readings i) / 10 := by
  rw [averageVoltage, foldl_range_eq_sum]

variable [LinearOrder K] [IsStrictOrderedRing K]

/-- The average is no further from the level of the reads than the reads are. -/
theorem abs_averageVoltage_sub_le {readings : ℕ → K} {level : ℕ → K} {noise : K}
    (near : ∀ i < 10, |readings i - level i| ≤ noise) :
    |averageVoltage readings - averageVoltage level| ≤ noise := by
  have apart : averageVoltage readings - averageVoltage level =
      (∑ i ∈ Finset.range 10, (readings i - level i)) / 10 := by
    rw [averageVoltage_eq, averageVoltage_eq, Finset.sum_sub_distrib]
    ring
  have total : |∑ i ∈ Finset.range 10, (readings i - level i)| ≤ 10 * noise := by
    refine (Finset.abs_sum_le_sum_abs _ _).trans ?_
    refine (Finset.sum_le_card_nsmul _ _ noise fun i member =>
      near i (Finset.mem_range.mp member)).trans ?_
    simp
  rw [apart, abs_div, abs_of_pos (by norm_num : (0 : K) < 10)]
  linarith

/-- Reads that are off by up to some noise leave the angle off by no more. -/
theorem abs_getAngle_sub_le (encoder : MagneticPotEncoder K) {readings : ℕ → K} {level : ℕ → K}
    {noise : K} (near : ∀ i < 10, |readings i - level i| ≤ noise) :
    |encoder.getAngle readings - encoder.angleAt (averageVoltage level)| ≤ 72 * noise := by
  have same : encoder.getAngle readings - encoder.angleAt (averageVoltage level) =
      72 * (averageVoltage readings - averageVoltage level) := by
    unfold getAngle angleAt
    ring
  rw [same, abs_mul, abs_of_pos (by norm_num : (0 : K) < 72)]
  have average := abs_averageVoltage_sub_le near
  linarith

theorem averageVoltage_const (level : K) : averageVoltage (fun _ => level) = level := by
  rw [averageVoltage_eq, Finset.sum_const, Finset.card_range, nsmul_eq_mul]
  push_cast
  rw [mul_div_cancel_left₀ level (by norm_num : (10 : K) ≠ 0)]

/-- The reads of an angle next to the seam, where the voltage falls from 5 to 0:
some of them come from before it and some from after it. -/
def seam (low : K) (before : ℕ → Bool) (i : ℕ) : K := low + if before i then 5 else 0

def readsBefore (before : ℕ → Bool) : ℕ := ((Finset.range 10).filter fun i => before i = true).card

def OneSide (before : ℕ → Bool) : Prop :=
  (∀ i < 10, before i = false) ∨ ∀ i < 10, before i = true

theorem oneSide_iff (before : ℕ → Bool) :
    OneSide before ↔ readsBefore before = 0 ∨ readsBefore before = 10 := by
  have none : readsBefore before = 0 ↔ ∀ i < 10, before i = false := by
    simp [readsBefore, Finset.filter_eq_empty_iff]
  have all : readsBefore before = 10 ↔ ∀ i < 10, before i = true := by
    have full := Finset.card_filter_eq_iff (s := Finset.range 10) (p := fun i => before i = true)
    rw [Finset.card_range] at full
    simpa [readsBefore] using full
  rw [none, all, OneSide]

theorem averageVoltage_seam (low : K) (before : ℕ → Bool) :
    averageVoltage (seam low before) = low + readsBefore before / 2 := by
  have total : ∑ i ∈ Finset.range 10, seam low before i = 10 * low + 5 * readsBefore before := by
    simp only [seam, Finset.sum_add_distrib, Finset.sum_const, Finset.card_range, nsmul_eq_mul,
      Finset.sum_ite, add_zero, mul_zero, readsBefore]
    push_cast
    ring
  rw [averageVoltage_eq, total]
  ring

/-- Each read from before the seam takes the angle 36 degrees further. -/
theorem abs_getAngle_seam_le (encoder : MagneticPotEncoder K) {readings : ℕ → K} {low noise : K}
    {before : ℕ → Bool} (near : ∀ i < 10, |readings i - seam low before i| ≤ noise) :
    |encoder.getAngle readings - (encoder.angleAt low + 36 * readsBefore before)| ≤ 72 * noise := by
  have off := encoder.abs_getAngle_sub_le near
  have further : encoder.angleAt (averageVoltage (seam low before)) =
      encoder.angleAt low + 36 * readsBefore before := by
    rw [averageVoltage_seam]
    unfold angleAt
    ring
  rwa [further] at off

variable [FloorRing K]

/-- The angle is right as long as all ten reads fall on one side of the seam, and
wrong by 36 degrees or more, up to the noise, as soon as they do not. -/
theorem getAngle_seam (encoder : MagneticPotEncoder K) {readings : ℕ → K} {low noise : K}
    {before : ℕ → Bool} (near : ∀ i < 10, |readings i - seam low before i| ≤ noise) :
    (OneSide before →
      |RobotMath.angleDistance (encoder.getAngle readings) (encoder.angleAt low)| ≤ 72 * noise) ∧
    (¬OneSide before →
      36 - 72 * noise ≤
        |RobotMath.angleDistance (encoder.getAngle readings) (encoder.angleAt low)|) := by
  obtain ⟨lower, upper⟩ := abs_le.mp (encoder.abs_getAngle_seam_le near)
  constructor
  · intro oneSide
    rcases (oneSide_iff before).mp oneSide with none | all
    · refine (RobotMath.abs_angleDistance_le_abs _ _ 0).trans ?_
      rw [none] at lower upper
      push_cast at lower upper ⊢
      rw [abs_le]
      constructor <;> linarith
    · refine (RobotMath.abs_angleDistance_le_abs _ _ 1).trans ?_
      rw [all] at lower upper
      push_cast at lower upper ⊢
      rw [abs_le]
      constructor <;> linarith
  · intro apart
    have some : 0 < readsBefore before ∧ readsBefore before < 10 := by
      rw [oneSide_iff, not_or] at apart
      have atMost : readsBefore before ≤ 10 := by
        simpa [readsBefore] using Finset.card_filter_le (Finset.range 10) fun i => before i = true
      omega
    obtain ⟨turns, gap⟩ := AddCommGroup.modEq_iff_eq_add_zsmul.mp
      (RobotMath.angleDistance_modEq (encoder.getAngle readings) (encoder.angleAt low))
    rw [zsmul_eq_mul] at gap
    -- Neither way round do full turns make up for some but not all of the reads.
    rcases lt_or_ge turns 0 with back | forth
    · have atMost : (turns : K) ≤ -1 := by exact_mod_cast Int.le_sub_one_of_lt back
      have others : (readsBefore before : K) ≤ 9 := by exact_mod_cast Nat.le_of_lt_succ some.2
      refine le_trans ?_ (le_abs_self _)
      linarith
    · have atLeast : (0 : K) ≤ turns := by exact_mod_cast forth
      have others : (1 : K) ≤ readsBefore before := by exact_mod_cast some.1
      refine le_trans ?_ (neg_le_abs _)
      linarith

/-- The encoder of rotFR half at the seam: 180 degrees away from its -60. -/
def encFR : MagneticPotEncoder ℚ := construct (-60) 1 2

def atSeam (i : ℕ) : ℚ := if i < 5 then 5 else 0

theorem getAngle_seam_half :
    encFR.getAngle atSeam = 120 ∧
      36 - 72 * 0 ≤ |RobotMath.angleDistance (encFR.getAngle atSeam) (encFR.angleAt 0)| :=
  have near : ∀ i < 10, |atSeam i - seam 0 (fun i => decide (i < 5)) i| ≤ 0 := by decide +kernel
  ⟨by decide +kernel, (encFR.getAngle_seam near).2 (by unfold OneSide; decide)⟩

end MagneticPotEncoder

end FrcRobot
