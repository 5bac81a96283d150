import Mathlib.Tactic.Linarith
import Mathlib.Tactic.Push
import Mathlib.Tactic.Ring
import ChatCommands.Number.Shortest

/-!
# Rounding to binary numbers

The reals that round to a finite number lie between its two ends.  What lies there is
rounded to the number: the significand is the nearest whole number of units of the last
place, and below a power of two the nearest number of half units.
-/

namespace ChatCommands

/-- A quotient is no farther than half a unit from a whole number, and an odd number is
nearer. -/
structure IsNearest (num den n : Nat) : Prop where
  low : 2 * (n * den) ≤ 2 * num + den
  high : 2 * num ≤ 2 * (n * den) + den
  tie : n % 2 = 0 ∨ (2 * (n * den) < 2 * num + den ∧ 2 * num < 2 * (n * den) + den)

theorem IsNearest.roundEven_eq {num den n : Nat} (hden : 0 < den) (h : IsNearest num den n) :
    roundEven num den = n := by
  obtain ⟨hlow, hhigh, htie⟩ := h
  have hdiv : num / den * den + num % den = num := Nat.div_add_mod' num den
  have hmod : num % den < den := Nat.mod_lt num hden
  unfold roundEven
  generalize num / den = q at *
  generalize num % den = r at *
  have hnear : n = q ∨ n = q + 1 := by
    have hle : q * den < (n + 1) * den := by linarith [Nat.succ_mul n den]
    have hge : n * den < (q + 2) * den := by linarith [Nat.add_mul q 2 den]
    have hq := Nat.lt_of_mul_lt_mul_right hle
    have hn := Nat.lt_of_mul_lt_mul_right hge
    omega
  dsimp only
  rcases hnear with rfl | rfl
  · split
    · rfl
    · split
      · omega
      · omega
  · have hsucc : (q + 1) * den = q * den + den := Nat.succ_mul q den
    split
    · omega
    · split
      · rfl
      · omega

namespace FiniteFloat

variable {f : FloatFormat}

/-- The fraction with its leading one, which the smallest numbers lack. -/
def significand (x : FiniteFloat f) : Nat :=
  if x.exponent.val = 0 then x.fraction.val else f.fractionCount + x.fraction.val

theorem magnitude_eq (x : FiniteFloat f) : x.magnitude = x.significand * x.gap := by
  unfold magnitude significand
  split
  next h => simp [gap, h]
  next => rfl

theorem gap_eq (x : FiniteFloat f) : x.gap = 2 ^ (x.exponent.val - 1) := rfl

theorem gap_pos (x : FiniteFloat f) : 0 < x.gap :=
  Nat.two_pow_pos (x.exponent.val - 1)

theorem significand_lt (x : FiniteFloat f) : x.significand < 2 * f.fractionCount := by
  have hfraction := x.fraction.isLt
  unfold significand
  split <;> omega

/-- The fields, read as one number, are the significand and the steps of the
exponent. -/
theorem ofCode_significand (x : FiniteFloat f) :
    BinaryFloat.ofCode f x.negative
      ((x.exponent.val - 1) * f.fractionCount + x.significand) = .finite x := by
  have hcode : (x.exponent.val - 1) * f.fractionCount + x.significand =
      f.fractionCount * x.exponent.val + x.fraction.val := by
    unfold significand
    split
    next h => simp [h]
    next h =>
      obtain ⟨e, he⟩ := Nat.exists_eq_add_one_of_ne_zero h
      rw [he, Nat.add_sub_cancel]
      ring
  have hdiv : (f.fractionCount * x.exponent.val + x.fraction.val) / f.fractionCount =
      x.exponent.val := by
    rw [Nat.mul_add_div f.fractionCount_pos, Nat.div_eq_of_lt x.fraction.isLt, Nat.add_zero]
  have hmod : (f.fractionCount * x.exponent.val + x.fraction.val) % f.fractionCount =
      x.fraction.val := by
    rw [Nat.mul_add_mod, Nat.mod_eq_of_lt x.fraction.isLt]
  rw [hcode, BinaryFloat.ofCode, dif_pos (by rw [hdiv]; exact x.exponent.isLt)]
  simp only [hdiv, hmod]

theorem upperEnd_eq (x : FiniteFloat f) : x.upperEnd = (4 * x.significand + 2) * x.gap := by
  rw [upperEnd, magnitude_eq]
  ring

theorem le_lowerEnd (x : FiniteFloat f) : 4 * (x.significand * x.gap) ≤ x.lowerEnd + 2 * x.gap := by
  unfold lowerEnd
  rw [magnitude_eq]
  split
  · omega
  · omega

theorem upperEnd_le (x : FiniteFloat f) :
    x.upperEnd ≤ (8 * f.fractionCount) * 2 ^ (f.exponentCount - 2) := by
  have hsignificand := x.significand_lt
  have hexponent := x.exponent.isLt
  rw [upperEnd_eq, gap_eq]
  exact Nat.mul_le_mul (by omega) (Nat.pow_le_pow_right Nat.two_pos (by omega))

/-- A quotient is among the reals that round to a number.  The ends count when the
fraction is even. -/
structure Holds (x : FiniteFloat f) (num den : Nat) : Prop where
  low : x.lowerEnd * den ≤ num * (4 * f.unitScale)
  high : num * (4 * f.unitScale) ≤ x.upperEnd * den
  tie : x.fraction.val % 2 = 0 ∨
    (x.lowerEnd * den < num * (4 * f.unitScale) ∧ num * (4 * f.unitScale) < x.upperEnd * den)

theorem readsBack_iff {x : FiniteFloat f} {d : Scientific} :
    x.readsBack d = true ↔ x.Holds d.numerator d.denominator := by
  simp only [readsBack, compareDecimal, Bool.and_eq_true, Bool.or_eq_true, beq_iff_eq,
    Nat.compare_eq_gt, Nat.compare_eq_eq, Nat.compare_eq_lt]
  constructor
  · rintro ⟨hlow, hhigh⟩
    exact ⟨by omega, by omega, by omega⟩
  · rintro ⟨hlow, hhigh, htie⟩
    omega

/-! ### Units of the last place -/

section Units

variable {x : FiniteFloat f} {num den : Nat}

theorem upperEnd_mul (x : FiniteFloat f) (den : Nat) :
    x.upperEnd * den = 4 * (x.significand * (den * x.gap)) + 2 * (den * x.gap) := by
  rw [upperEnd_eq]
  ring

theorem le_lowerEnd_mul (x : FiniteFloat f) (den : Nat) :
    4 * (x.significand * (den * x.gap)) ≤ x.lowerEnd * den + 2 * (den * x.gap) := by
  have hle := Nat.mul_le_mul_right den x.le_lowerEnd
  have hleft : 4 * (x.significand * x.gap) * den = 4 * (x.significand * (den * x.gap)) := by ring
  have hright : (x.lowerEnd + 2 * x.gap) * den = x.lowerEnd * den + 2 * (den * x.gap) := by ring
  omega

theorem significand_parity (hbits : 0 < f.fractionBits) (x : FiniteFloat f) :
    x.significand % 2 = x.fraction.val % 2 := by
  obtain ⟨b, hb⟩ := Nat.exists_eq_add_one_of_ne_zero (Nat.ne_of_gt hbits)
  have hcount : f.fractionCount = 2 * 2 ^ b := by
    rw [FloatFormat.fractionCount, hb]
    exact Nat.pow_succ'
  unfold significand
  split <;> omega

/-- The significand is the whole number nearest to a quotient that is among the reals of
the number. -/
theorem Holds.isNearest (hbits : 0 < f.fractionBits) (h : x.Holds num den) :
    IsNearest (num * f.unitScale) (den * x.gap) x.significand := by
  obtain ⟨hlow, hhigh, htie⟩ := h
  have hlower := x.le_lowerEnd_mul den
  have hparity := x.significand_parity hbits
  have htotal : num * (4 * f.unitScale) = 4 * (num * f.unitScale) := by ring
  rw [upperEnd_mul, htotal] at hhigh htie
  rw [htotal] at hlow
  exact ⟨by omega, by omega, by omega⟩

/-- Below a power of two, the nearest number has units of half the size. -/
theorem Holds.isNearest_half {s : Nat} (hexponent : x.exponent.val - 1 = s + 1)
    (h : x.Holds num den) (hsmall : num * f.unitScale < f.fractionCount * (den * x.gap)) :
    x.significand = f.fractionCount ∧
      IsNearest (num * f.unitScale) (den * 2 ^ s) (2 * f.fractionCount) := by
  have hlow : x.lowerEnd * den ≤ 4 * (num * f.unitScale) := by
    have htotal : num * (4 * f.unitScale) = 4 * (num * f.unitScale) := by ring
    exact htotal ▸ h.low
  have hgap : x.gap = 2 * 2 ^ s := by rw [gap_eq, hexponent, Nat.pow_succ']
  have hsignificand : x.significand = f.fractionCount + x.fraction.val := by
    rw [significand, if_neg (by omega)]
  have hpower : x.fraction.val = 0 := by
    by_contra hne
    have hlower := x.le_lowerEnd_mul den
    have hle : (f.fractionCount + 1) * (den * x.gap) ≤ x.significand * (den * x.gap) :=
      Nat.mul_le_mul_right _ (by omega)
    have hleft : (f.fractionCount + 1) * (den * x.gap) =
        f.fractionCount * (den * x.gap) + den * x.gap := by ring
    omega
  have hwhole : x.significand = f.fractionCount := by omega
  -- Here the lower end is nearer than elsewhere.
  have hend : x.lowerEnd + x.gap = 4 * (f.fractionCount * x.gap) := by
    have hle : 1 * x.gap ≤ f.fractionCount * x.gap :=
      Nat.mul_le_mul_right x.gap f.fractionCount_pos
    have hcond : (decide (x.fraction.val = 0) && decide (1 < x.exponent.val)) = true := by
      simp only [hpower, decide_true, Bool.true_and, decide_eq_true_eq]
      omega
    rw [lowerEnd, magnitude_eq, hcond, if_pos rfl, hwhole]
    omega
  have hnear : x.lowerEnd * den + 2 * (den * 2 ^ s) = 8 * (f.fractionCount * (den * 2 ^ s)) := by
    calc x.lowerEnd * den + 2 * (den * 2 ^ s) = (x.lowerEnd + x.gap) * den := by rw [hgap]; ring
      _ = 8 * (f.fractionCount * (den * 2 ^ s)) := by rw [hend, hgap]; ring
  have hdouble : 2 * f.fractionCount * (den * 2 ^ s) = 2 * (f.fractionCount * (den * 2 ^ s)) := by
    ring
  have hbelow : f.fractionCount * (den * x.gap) = 2 * (f.fractionCount * (den * 2 ^ s)) := by
    rw [hgap]
    ring
  exact ⟨hwhole, by omega, by omega, .inl (by omega)⟩

end Units

theorem log2_div {total den k : Nat} (hden : 0 < den) (hlow : 2 ^ k * den ≤ total)
    (hhigh : total < 2 ^ (k + 1) * den) : Nat.log2 (total / den) = k := by
  have hle : 2 ^ k ≤ total / den := (Nat.le_div_iff_mul_le hden).mpr hlow
  have hlt : total / den < 2 ^ (k + 1) := (Nat.div_lt_iff_lt_mul hden).mpr hhigh
  have hne : total / den ≠ 0 := Nat.ne_of_gt (Nat.lt_of_lt_of_le (Nat.two_pow_pos k) hle)
  have hk := (Nat.le_log2 hne).mpr hle
  have hk' := (Nat.log2_lt hne).mpr hlt
  omega

/-- The number of places that are dropped, for a quotient with a full significand. -/
theorem log2_div_sub {total den shift : Nat} (hden : 0 < den)
    (hfull : shift = 0 ∨ f.fractionCount * (den * 2 ^ shift) ≤ total)
    (hbelow : total < 2 * f.fractionCount * (den * 2 ^ shift)) :
    Nat.log2 (total / den) - f.fractionBits = shift := by
  have hcount : f.fractionCount = 2 ^ f.fractionBits := rfl
  have htwice : 2 ^ (f.fractionBits + shift + 1) * den =
      2 * f.fractionCount * (den * 2 ^ shift) := by
    rw [hcount, Nat.pow_succ, Nat.pow_add]
    ring
  rcases hfull with rfl | hfull
  · have hlt : total / den < 2 ^ (f.fractionBits + 0 + 1) := by
      rw [Nat.div_lt_iff_lt_mul hden, htwice]
      exact hbelow
    by_cases hzero : total / den = 0
    · rw [hzero, Nat.log2_zero, Nat.zero_sub]
    · have hlog := (Nat.log2_lt hzero).mpr hlt
      omega
  · have hscale : 2 ^ (f.fractionBits + shift) * den = f.fractionCount * (den * 2 ^ shift) := by
      rw [hcount, Nat.pow_add]
      ring
    have hlog : Nat.log2 (total / den) = f.fractionBits + shift :=
      log2_div hden (hscale ▸ hfull) (htwice ▸ hbelow)
    omega

theorem round_eq_of_isNearest {x : FiniteFloat f} {num den shift n : Nat} (hden : 0 < den)
    (hshift : Nat.log2 (num * f.unitScale / den) - f.fractionBits = shift)
    (hnearest : IsNearest (num * f.unitScale) (den * 2 ^ shift) n)
    (hcode : shift * f.fractionCount + n =
      (x.exponent.val - 1) * f.fractionCount + x.significand) :
    BinaryFloat.round f x.negative num den = .finite x := by
  have hunit : 0 < den * 2 ^ shift := Nat.mul_pos hden (Nat.two_pow_pos shift)
  have hround : roundEven (num * f.unitScale) (den * Nat.pow 2 shift) = n :=
    hnearest.roundEven_eq hunit
  rw [BinaryFloat.round, hshift, hround, hcode, x.ofCode_significand]

/-- A quotient that is among the reals of a number is rounded to it. -/
theorem round_eq (hbits : 0 < f.fractionBits) {x : FiniteFloat f} {num den : Nat} (hden : 0 < den)
    (h : x.Holds num den) : BinaryFloat.round f x.negative num den = .finite x := by
  have hnearest := h.isNearest hbits
  -- A quotient just below a power of two belongs to it as well, but is rounded in units
  -- of half the size.
  by_cases hfull : x.exponent.val - 1 = 0 ∨ f.fractionCount * (den * x.gap) ≤ num * f.unitScale
  · refine round_eq_of_isNearest hden (log2_div_sub hden hfull ?_) hnearest rfl
    have hle : (x.significand + 1) * (den * x.gap) ≤ 2 * f.fractionCount * (den * x.gap) :=
      Nat.mul_le_mul_right _ x.significand_lt
    have hleft : (x.significand + 1) * (den * x.gap) =
        x.significand * (den * x.gap) + den * x.gap := by ring
    have hhigh := hnearest.high
    have hunit : 0 < den * x.gap := Nat.mul_pos hden x.gap_pos
    exact Nat.lt_of_lt_of_le (by omega) hle
  · push Not at hfull
    obtain ⟨hexponent, hsmall⟩ := hfull
    obtain ⟨s, hs⟩ := Nat.exists_eq_add_one_of_ne_zero hexponent
    obtain ⟨hwhole, hhalf⟩ := h.isNearest_half hs hsmall
    have hbelow : f.fractionCount * (den * x.gap) = 2 * f.fractionCount * (den * 2 ^ s) := by
      rw [gap_eq, hs, Nat.pow_succ]
      ring
    refine round_eq_of_isNearest hden (log2_div_sub hden (.inr ?_) (hbelow ▸ hsmall)) hhalf ?_
    · have hlow := hhalf.low
      have hdouble : 2 * f.fractionCount * (den * 2 ^ s) =
          2 * (f.fractionCount * (den * 2 ^ s)) := by ring
      have hle : 1 * (den * 2 ^ s) ≤ f.fractionCount * (den * 2 ^ s) :=
        Nat.mul_le_mul_right _ f.fractionCount_pos
      omega
    · rw [hs, hwhole]
      ring

/-- Only the value of a quotient matters. -/
theorem Holds.of_eq {x : FiniteFloat f} {num den num' den' : Nat} (hden : 0 < den)
    (hden' : 0 < den') (heq : num' * den = num * den') (h : x.Holds num den) :
    x.Holds num' den' := by
  have hvalue : num' * (4 * f.unitScale) * den = num * (4 * f.unitScale) * den' := by
    calc num' * (4 * f.unitScale) * den = num' * den * (4 * f.unitScale) := by ring
      _ = num * (4 * f.unitScale) * den' := by rw [heq]; ring
  have hend : ∀ e, e * den' * den = e * den * den' := fun e => by ring
  constructor
  · refine Nat.le_of_mul_le_mul_right ?_ hden
    rw [hvalue, hend]
    exact Nat.mul_le_mul_right den' h.low
  · refine Nat.le_of_mul_le_mul_right ?_ hden
    rw [hvalue, hend]
    exact Nat.mul_le_mul_right den' h.high
  · refine h.tie.imp_right ?_
    rintro ⟨hlow, hhigh⟩
    constructor
    · refine Nat.lt_of_mul_lt_mul_right (a := den) ?_
      rw [hvalue, hend]
      exact Nat.mul_lt_mul_of_pos_right hlow hden'
    · refine Nat.lt_of_mul_lt_mul_right (a := den) ?_
      rw [hvalue, hend]
      exact Nat.mul_lt_mul_of_pos_right hhigh hden'

end FiniteFloat

/-! ## Zeros -/

namespace BinaryFloat

variable {f : FloatFormat} {x y : FiniteFloat f}

theorem lt_congr_left (h : x.units = y.units) (z : BinaryFloat f) :
    (finite x).lt z = (finite y).lt z := by
  cases z with
  | finite z => simp only [lt, h]
  | infinite negative => rfl
  | nan => rfl

theorem lt_congr_right (h : x.units = y.units) (z : BinaryFloat f) :
    z.lt (finite x) = z.lt (finite y) := by
  cases z with
  | finite z => simp only [lt, h]
  | infinite negative => rfl
  | nan => rfl

/-- Zero with a sign. -/
def zero (f : FloatFormat) (h : 0 < f.exponentCount) (negative : Bool) : FiniteFloat f :=
  ⟨negative, ⟨0, h⟩, ⟨0, f.fractionCount_pos⟩⟩

theorem units_zero (h : 0 < f.exponentCount) (negative : Bool) : (zero f h negative).units = 0 := by
  cases negative with
  | true => rfl
  | false => rfl

theorem round_zero (h : 0 < f.exponentCount) (negative : Bool) {den : Nat} (hden : 0 < den) :
    round f negative 0 den = .finite (zero f h negative) := by
  have hround : roundEven 0 den = 0 := by simp [roundEven, hden]
  simp [round, ofCode, zero, hround, h]

end BinaryFloat

/-- Zero with a sign, as a double. -/
def Double.zero (negative : Bool) : FiniteFloat .double :=
  BinaryFloat.zero .double (by decide) negative

theorem FloatFormat.unitScale_pos (f : FloatFormat) : 0 < f.unitScale :=
  Nat.two_pow_pos f.unitBits

theorem Double.convert_zero (negative : Bool) :
    (BinaryFloat.finite (zero negative)).convert .single =
      .finite (BinaryFloat.zero .single (by decide) negative) :=
  BinaryFloat.round_zero (by decide) negative (FloatFormat.unitScale_pos .double)

end ChatCommands
