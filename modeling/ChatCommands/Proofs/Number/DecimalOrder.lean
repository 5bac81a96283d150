import Mathlib.Algebra.Order.Field.Rat
import Mathlib.Tactic.FieldSimp
import Mathlib.Tactic.Linarith
import Mathlib.Tactic.Positivity
import ChatCommands.Number.Bound
import ChatCommands.Proofs.Number.Rounding

/-!
# Decimals among the rational numbers

Decimals are compared as the rational numbers that they stand for, and all of them lie between
`-2 ^ 96` and `2 ^ 96`.  A double has a decimal exactly if it lies there too: a whole one keeps
its value, and the places of another one are dropped until few enough are left.
-/

namespace ChatCommands

namespace Decimal

/-- The number that a decimal stands for. -/
def toRat (d : Decimal) : ℚ :=
  d.signedCoefficient / 10 ^ d.scale.val

variable {a b d : Decimal}

theorem toRat_lt_toRat_iff :
    a.toRat < b.toRat ↔
      a.signedCoefficient * 10 ^ b.scale.val < b.signedCoefficient * 10 ^ a.scale.val := by
  have hscale : ∀ d : Decimal, (0 : ℚ) < 10 ^ d.scale.val := fun d => by positivity
  rw [toRat, toRat, div_lt_div_iff₀ (hscale a) (hscale b)]
  exact_mod_cast Iff.rfl

theorem lt_iff : a.lt b = true ↔ a.toRat < b.toRat := by
  rw [toRat_lt_toRat_iff, lt, compare, beq_iff_eq, compare_lt_iff_lt]
  rfl

theorem natAbs_signedCoefficient (d : Decimal) :
    d.signedCoefficient.natAbs = d.coefficient.val := by
  unfold signedCoefficient
  split <;> omega

theorem abs_toRat_le (d : Decimal) : |d.toRat| ≤ 2 ^ 96 - 1 := by
  have hcoefficient : d.signedCoefficient.natAbs < coefficientCount :=
    d.natAbs_signedCoefficient ▸ d.coefficient.isLt
  have habs : |(d.signedCoefficient : ℚ)| ≤ 2 ^ 96 - 1 := by
    have hcount : coefficientCount = 2 ^ 96 := rfl
    have hsucc : (d.signedCoefficient.natAbs : ℚ) + 1 ≤ 2 ^ 96 := by
      exact_mod_cast hcount ▸ hcoefficient
    rw [← Int.cast_abs, Int.abs_eq_natAbs, Int.cast_natCast]
    linarith
  have hscale : (1 : ℚ) ≤ 10 ^ d.scale.val := one_le_pow₀ (by norm_num)
  calc |d.toRat|
    _ = |(d.signedCoefficient : ℚ)| / 10 ^ d.scale.val := by
      rw [toRat, abs_div, abs_of_pos (lt_of_lt_of_le one_pos hscale)]
    _ ≤ |(d.signedCoefficient : ℚ)| := div_le_self (abs_nonneg _) hscale
    _ ≤ 2 ^ 96 - 1 := habs

theorem toRat_lt (d : Decimal) : d.toRat < 2 ^ 96 :=
  lt_of_le_of_lt (abs_le.mp d.abs_toRat_le).2 (by norm_num)

theorem lt_toRat (d : Decimal) : -2 ^ 96 < d.toRat :=
  lt_of_lt_of_le (by norm_num) (abs_le.mp d.abs_toRat_le).1

/-- A decimal without places. -/
def whole (negative : Bool) (coefficient : Fin coefficientCount) : Decimal :=
  ⟨negative, coefficient, ⟨0, by decide⟩⟩

/-- The decimal that is farthest from zero, with a sign. -/
def extreme (negative : Bool) : Decimal :=
  whole negative ⟨coefficientCount - 1, by decide⟩

theorem toRat_extreme (negative : Bool) :
    (extreme negative).toRat = if negative then -(2 ^ 96 - 1) else 2 ^ 96 - 1 := by
  cases negative <;> norm_num [toRat, extreme, whole, signedCoefficient, coefficientCount]

theorem extreme_le (d : Decimal) : (extreme true).toRat ≤ d.toRat := by
  rw [toRat_extreme, if_pos rfl]
  exact (abs_le.mp d.abs_toRat_le).1

theorem le_extreme (d : Decimal) : d.toRat ≤ (extreme false).toRat := by
  rw [toRat_extreme, if_neg Bool.false_ne_true]
  exact (abs_le.mp d.abs_toRat_le).2

theorem ofParts?_eq_none_iff {negative : Bool} {coefficient scale : Nat} :
    ofParts? negative coefficient scale = none ↔
      ¬ (coefficient < coefficientCount ∧ scale < 29) := by
  unfold ofParts?
  split
  next h => simp [h]
  next h => simp [h]

/-- The decimal of an integer of 64 bits stands for it. -/
theorem exists_ofInt? (n : SizedInt .w64) : ∃ d, ofInt? n.val = some d ∧ d.toRat = n.val := by
  have hfits : n.val.natAbs < coefficientCount ∧ 0 < 29 := by
    have hlow := n.low_le
    have hhigh := n.le_high
    simp only [Width.low, Width.high, Numeral.maxInt64, coefficientCount] at hlow hhigh ⊢
    omega
  refine ⟨_, dif_pos hfits, ?_⟩
  simp only [toRat, signedCoefficient, decide_eq_true_eq, pow_zero, div_one]
  congr 1
  split <;> omega

/-! ## The way from base two to base ten -/

namespace Conversion

variable {c : Conversion}

theorem coefficient_halve_lt (h : c.coefficient < coefficientCount) (times : Nat) :
    (halve times c).coefficient < coefficientCount := by
  induction times generalizing c with
  | zero => exact h
  | succ times ih =>
      rw [halve]
      split
      next => exact ih (Nat.lt_of_le_of_lt (Nat.div_le_self _ _) h)
      next =>
        split
        next hroom => exact ih hroom
        next => exact ih (Nat.lt_of_le_of_lt (Nat.div_le_self _ _) h)

/-- There is room for the coefficient, and there are not too many places. -/
structure Fits (c : Conversion) (least : Int) : Prop where
  coefficient_lt : c.coefficient < coefficientCount
  least_le : least ≤ c.exponent

variable {least : Int}

theorem Fits.dropPlace (h : c.Fits least) : c.dropPlace.Fits (least + 1) := by
  obtain ⟨hcoefficient, hexponent⟩ := h
  constructor
  · simp only [Conversion.dropPlace, coefficientCount] at hcoefficient ⊢
    split <;> omega
  · simp only [Conversion.dropPlace]
    omega

theorem Fits.mono {less : Int} (h : c.Fits least) (hless : less ≤ least) : c.Fits less :=
  ⟨h.coefficient_lt, Int.le_trans hless h.least_le⟩

/-- Each place that is dropped leaves one less; when nothing is left there are none. -/
theorem Fits.dropBeyond (h : c.Fits least) (times : Nat) :
    (c.dropBeyond times).Fits (min 0 (least + times)) := by
  induction times generalizing c least with
  | zero => exact h.mono (by omega)
  | succ times ih =>
      rw [Conversion.dropBeyond]
      split
      next => exact ⟨by decide, by simp⟩
      next => exact (ih h.dropPlace).mono (by push_cast; omega)

theorem Fits.dropNoise (h : c.Fits least) (times : Nat) : (c.dropNoise times).Fits least := by
  induction times generalizing c with
  | zero => exact h
  | succ times ih =>
      rw [Conversion.dropNoise]
      split
      next => exact ih (h.dropPlace.mono (by omega))
      next => exact h

theorem Fits.dropZeros (h : c.Fits least) (times : Nat) : (c.dropZeros times).Fits least := by
  induction times generalizing c with
  | zero => exact h
  | succ times ih =>
      rw [Conversion.dropZeros]
      split
      next =>
        refine ih ⟨Nat.lt_of_le_of_lt (Nat.div_le_self _ _) h.coefficient_lt, ?_⟩
        exact Int.le_trans h.least_le (by simp)
      next => exact h

/-- However many places there were, few enough are left in the end. -/
theorem fits_dropped (h : c.coefficient < coefficientCount) (noise zeros : Nat) :
    (((c.dropBeyond (-(maxScale : Int) - c.exponent).toNat).dropNoise noise).dropZeros
      zeros).Fits (-maxScale) := by
  have hstart : c.Fits c.exponent := ⟨h, Int.le_refl _⟩
  have hbeyond := hstart.dropBeyond (-(maxScale : Int) - c.exponent).toNat
  refine ((hbeyond.mono ?_).dropNoise noise).dropZeros zeros
  unfold maxScale
  omega

theorem Fits.room (h : c.Fits (-maxScale)) :
    c.coefficient < coefficientCount ∧ (-c.exponent).toNat < 29 := by
  have hleast := h.least_le
  unfold maxScale at hleast
  exact ⟨h.coefficient_lt, by omega⟩

end Conversion

end Decimal

namespace FiniteFloat

/-- The number that a finite number of a format is. -/
def toRat {f : FloatFormat} (x : FiniteFloat f) : ℚ :=
  x.units / f.unitScale

variable {f : FloatFormat}

theorem toRat_nonneg {x : FiniteFloat f} (h : x.negative = false) : 0 ≤ x.toRat := by
  rw [toRat, units, h, if_neg Bool.false_ne_true]
  positivity

theorem abs_toRat (x : FiniteFloat f) : |x.toRat| = x.magnitude / f.unitScale := by
  have hunits : |(x.units : ℚ)| = x.magnitude := by
    rw [← Int.cast_abs, Int.abs_eq_natAbs]
    unfold units
    split <;> simp
  rw [toRat, abs_div, hunits, Nat.abs_cast]

/-- With a large exponent the number is a multiple of one. -/
theorem magnitude_of_le {x : FiniteFloat f} (h : f.unitBits ≤ x.exponent.val - 1) :
    x.magnitude = x.significand * 2 ^ (x.exponent.val - 1 - f.unitBits) * f.unitScale := by
  have hunit : f.unitScale = 2 ^ f.unitBits := rfl
  rw [x.magnitude_eq, x.gap_eq, hunit, Nat.mul_assoc, ← Nat.pow_add, Nat.sub_add_cancel h]

/-- With a small exponent the number is less than its digits allow. -/
theorem magnitude_lt_of_lt {x : FiniteFloat f} (h : x.exponent.val - 1 < f.unitBits) :
    x.magnitude < 2 * f.fractionCount * f.unitScale := by
  have hunit : f.unitScale = 2 ^ f.unitBits := rfl
  rw [x.magnitude_eq, x.gap_eq, hunit]
  exact Nat.mul_lt_mul_of_lt_of_le x.significand_lt
    (Nat.pow_le_pow_right (by decide) (Nat.le_of_lt h)) (Nat.two_pow_pos _)

theorem le_abs_toRat_iff (x : FiniteFloat f) (n : Nat) :
    (n : ℚ) ≤ |x.toRat| ↔ n * f.unitScale ≤ x.magnitude := by
  have hscale : (0 : ℚ) < f.unitScale := by exact_mod_cast f.unitScale_pos
  rw [abs_toRat, le_div_iff₀ hscale]
  exact_mod_cast Iff.rfl

end FiniteFloat

namespace Decimal

variable {x : FiniteFloat .double}

/-- A double with a large exponent is whole, and its value is the coefficient. -/
theorem ofFinite?_of_le (hzero : x.magnitude ≠ 0)
    (h : FloatFormat.double.unitBits ≤ x.exponent.val - 1) :
    ofFinite? x = ofParts? x.negative
      (x.significand * 2 ^ (x.exponent.val - 1 - FloatFormat.double.unitBits)) 0 := by
  have hpower : (0 : Int) ≤
      ((x.exponent.val - 1 : Nat) : Int) - (FloatFormat.double.unitBits : Int) := by omega
  have hplaces : (((x.exponent.val - 1 : Nat) : Int) -
      (FloatFormat.double.unitBits : Int)).natAbs =
        x.exponent.val - 1 - FloatFormat.double.unitBits := by omega
  rw [ofFinite?, if_neg hzero]
  simp only [if_pos hpower, hplaces]
  rfl

/-- A double with a small exponent has a decimal, since enough places are dropped. -/
theorem exists_ofFinite?_of_lt (h : x.exponent.val - 1 < FloatFormat.double.unitBits) :
    ∃ d, ofFinite? x = some d := by
  rw [← Option.ne_none_iff_exists']
  by_cases hzero : x.magnitude = 0
  · simp [ofFinite?, hzero]
  · have hpower : ¬ (0 : Int) ≤
        ((x.exponent.val - 1 : Nat) : Int) - (FloatFormat.double.unitBits : Int) := by omega
    have hsignificand : x.significand < coefficientCount :=
      Nat.lt_trans x.significand_lt (by decide)
    rw [ofFinite?, if_neg hzero]
    simp only [if_neg hpower]
    have hhalved := Conversion.coefficient_halve_lt (c := ⟨x.significand,
      ((x.exponent.val - 1 : Nat) : Int) - (FloatFormat.double.unitBits : Int)⟩) hsignificand
    rw [ne_eq, ofParts?_eq_none_iff, not_not]
    exact (Conversion.fits_dropped (hhalved _) _ _).room

/-- A double has a decimal unless it is beyond all decimals. -/
theorem ofFinite?_eq_none_iff : ofFinite? x = none ↔ 2 ^ 96 ≤ |x.toRat| := by
  have hcount : ((coefficientCount : Nat) : ℚ) = 2 ^ 96 := by norm_num [coefficientCount]
  rw [← hcount, x.le_abs_toRat_iff]
  by_cases hsmall : x.exponent.val - 1 < FloatFormat.double.unitBits
  · obtain ⟨d, hd⟩ := exists_ofFinite?_of_lt hsmall
    have hlt : x.magnitude < coefficientCount * FloatFormat.double.unitScale :=
      Nat.lt_of_lt_of_le (FiniteFloat.magnitude_lt_of_lt hsmall)
        (Nat.mul_le_mul_right _ (by decide))
    rw [hd]
    constructor
    · intro h
      cases h
    · intro h
      exact absurd hlt (Nat.not_lt.mpr h)
  · have hlarge : FloatFormat.double.unitBits ≤ x.exponent.val - 1 := Nat.not_lt.mp hsmall
    have hscale := FloatFormat.double.unitScale_pos
    by_cases hzero : x.magnitude = 0
    · rw [ofFinite?, if_pos hzero, hzero]
      simp [hscale.ne', coefficientCount]
    · rw [ofFinite?_of_le hzero hlarge, ofParts?_eq_none_iff,
        FiniteFloat.magnitude_of_le hlarge, Nat.mul_le_mul_right_iff hscale]
      simp

end Decimal

end ChatCommands
