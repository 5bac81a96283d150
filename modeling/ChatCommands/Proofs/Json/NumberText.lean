import ChatCommands.Json.Printer
import ChatCommands.Proofs.Number.Shortest

/-!
# How numbers are written

Integers and doubles are written as digits, with a point and places or a power of ten where
they are needed.  Zeros do not stand in front of other digits.
-/

namespace ChatCommands.Json

/-- One or more digits. -/
def IsDigits (ds : List Char) : Prop :=
  ds ≠ [] ∧ ∀ c ∈ ds, c.isDigit = true

/-- A number as it is written behind its sign: the digits before the point, those behind it and
the power of ten with its sign. -/
structure NumberText where
  whole : List Char
  places : Option (List Char) := none
  power : Option (Bool × List Char) := none

namespace NumberText

/-- The point and the digits behind it. -/
def placesText (t : NumberText) : List Char :=
  t.places.elim [] ('.' :: ·)

/-- The power of ten behind its mark. -/
def powerText (t : NumberText) : List Char :=
  t.power.elim [] fun p => 'e' :: (if p.1 then '-' else '+') :: p.2

/-- The characters of a number. -/
def chars (t : NumberText) : List Char :=
  t.whole ++ (t.placesText ++ t.powerText)

/-- A number that is written as numbers are. -/
structure InOrder (t : NumberText) : Prop where
  whole : IsDigits t.whole
  leading : t.whole.head? = some '0' → t.whole = ['0']
  places : ∀ ds ∈ t.places, IsDigits ds
  power : ∀ p ∈ t.power, IsDigits p.2

end NumberText

/-! ## Texts of numbers -/

theorem isDigits_zero : IsDigits ['0'] :=
  ⟨List.cons_ne_nil _ _, fun _ hd => List.mem_singleton.mp hd ▸ rfl⟩

theorem isDigits_digits (n : Nat) : IsDigits (Numeral.digits n) :=
  ⟨Numeral.digits_ne_nil n, fun _ => Numeral.isDigit_of_mem_digits⟩

theorem head?_append_of_ne_nil {cs : List Char} (h : cs ≠ []) (rest : List Char) :
    (cs ++ rest).head? = cs.head? := by
  obtain ⟨c, cs, rfl⟩ := List.exists_cons_of_ne_nil h
  rfl

/-- The digits of a number start with a zero only if it is zero. -/
theorem eq_zero_of_head?_digits {n : Nat} (h : (Numeral.digits n).head? = some '0') : n = 0 := by
  induction n using Nat.strongRecOn with
  | ind n ih =>
      by_cases hsmall : n < 10
      · have hdigit : ∀ m < 10, (Numeral.digits m).head? = some '0' → m = 0 := by decide
        exact hdigit n hsmall h
      · have hstep : Numeral.digits n = Numeral.digits (n / 10) ++ [(n % 10).digitChar] :=
          Nat.toDigits_of_base_le (by decide) (Nat.le_of_not_lt hsmall)
        rw [hstep, head?_append_of_ne_nil (Numeral.digits_ne_nil (n / 10))] at h
        have hzero := ih (n / 10) (by omega) h
        omega

theorem inOrder_digits (n : Nat) : NumberText.InOrder ⟨Numeral.digits n, none, none⟩ := by
  constructor
  case whole => exact isDigits_digits n
  case leading =>
    intro h
    rw [eq_zero_of_head?_digits h]
    rfl
  case places => rintro ds ⟨⟩
  case power => rintro p ⟨⟩

theorem text_eq_signed (n : Nat) :
    Numeral.text n = signed false (NumberText.mk (Numeral.digits n) none none).chars := by
  simp [Numeral.text, signed, NumberText.chars, NumberText.placesText, NumberText.powerText]

theorem exists_text_integer (n : Int) : ∃ (negative : Bool) (t : NumberText), t.InOrder ∧
    Numeral.intText n = signed negative t.chars := by
  cases n with
  | ofNat m => exact ⟨false, _, inOrder_digits m, text_eq_signed m⟩
  | negSucc m =>
      refine ⟨true, _, inOrder_digits (m + 1), ?_⟩
      rw [← String.toList_inj]
      simp [Numeral.intText, Numeral.text, signed, NumberText.chars, NumberText.placesText,
        NumberText.powerText]

/-- Only the shortest decimal of zero is zero. -/
theorem shortest_of_digits_eq_zero {f : FloatFormat} {x : FiniteFloat f} {tie : Tie}
    (h : (x.shortest tie).digits = 0) : x.shortest tie = ⟨0, 0⟩ := by
  by_cases hzero : x.magnitude = 0
  · rw [FiniteFloat.shortest, if_pos hzero]
  · have hlow := (x.holds_shortest tie).low
    have hgap := x.gap_pos
    have hend := x.le_lowerEnd
    have hsignificand : 0 < x.significand := by
      rw [x.magnitude_eq] at hzero
      exact Nat.pos_of_ne_zero (Nat.ne_zero_of_mul_ne_zero_left hzero)
    have hmagnitude := Nat.le_mul_of_pos_left x.gap hsignificand
    have hpos : 0 < x.lowerEnd * (x.shortest tie).denominator :=
      Nat.mul_pos (by omega) (x.shortest tie).denominator_pos
    rw [Scientific.numerator, h, Nat.zero_mul, Nat.zero_mul] at hlow
    omega

variable {d : Scientific}

/-- Digits in place with a point behind them. -/
theorem inOrder_whole (hd : d.digits = 0 → d.exponent = 0) : NumberText.InOrder
    ⟨Numeral.digits d.digits ++ List.replicate d.exponent.toNat '0', some ['0'], none⟩ := by
  have hne := Numeral.digits_ne_nil d.digits
  constructor
  case whole =>
    refine ⟨List.append_ne_nil_of_left_ne_nil hne _, fun c hc => ?_⟩
    exact (List.mem_append.mp hc).elim Numeral.isDigit_of_mem_digits Numeral.isDigit_of_mem_zeros
  case leading =>
    intro h
    rw [head?_append_of_ne_nil hne] at h
    have hzero := eq_zero_of_head?_digits h
    rw [hzero, hd hzero]
    rfl
  case places =>
    rintro ds ⟨⟩
    exact isDigits_zero
  case power => rintro p ⟨⟩

/-- Digits in place with a point among them. -/
theorem inOrder_among {places : Nat} (hplaces : 0 < places)
    (hfew : places < (Numeral.digits d.digits).length) : NumberText.InOrder
      ⟨(Numeral.digits d.digits).take ((Numeral.digits d.digits).length - places),
        some ((Numeral.digits d.digits).drop ((Numeral.digits d.digits).length - places)), none⟩ := by
  have hdigits : ∀ c ∈ Numeral.digits d.digits, c.isDigit = true :=
    fun _ => Numeral.isDigit_of_mem_digits
  constructor
  case whole =>
    refine ⟨?_, fun c hc => hdigits c (List.mem_of_mem_take hc)⟩
    rw [ne_eq, ← List.length_eq_zero_iff, List.length_take]
    omega
  case leading =>
    intro h
    rw [List.head?_take, if_neg (by omega)] at h
    rw [eq_zero_of_head?_digits h] at hfew
    have hone : (Numeral.digits 0).length = 1 := rfl
    omega
  case places =>
    rintro ds ⟨⟩
    refine ⟨?_, fun c hc => hdigits c (List.mem_of_mem_drop hc)⟩
    rw [ne_eq, ← List.length_eq_zero_iff, List.length_drop]
    omega
  case power => rintro p ⟨⟩

/-- Digits behind the point. -/
theorem inOrder_behind (zeros n : Nat) : NumberText.InOrder
    ⟨['0'], some (List.replicate zeros '0' ++ Numeral.digits n), none⟩ := by
  constructor
  case whole => exact isDigits_zero
  case leading => exact fun _ => rfl
  case places =>
    rintro ds ⟨⟩
    refine ⟨List.append_ne_nil_of_right_ne_nil _ (Numeral.digits_ne_nil n), fun c hc => ?_⟩
    exact (List.mem_append.mp hc).elim Numeral.isDigit_of_mem_zeros Numeral.isDigit_of_mem_digits
  case power => rintro p ⟨⟩

/-- One digit before the point and a power. -/
theorem inOrder_power (n power : Nat) (negative : Bool) : NumberText.InOrder
    ⟨(Numeral.digits n).take 1,
      if (Numeral.digits n).length ≤ 1 then none else some ((Numeral.digits n).drop 1),
      some (negative, Numeral.digits power)⟩ := by
  have hdigits : ∀ c ∈ Numeral.digits n, c.isDigit = true := fun _ => Numeral.isDigit_of_mem_digits
  obtain ⟨c, cs, hcons⟩ := List.exists_cons_of_ne_nil (Numeral.digits_ne_nil n)
  rw [hcons] at hdigits
  rw [hcons]
  constructor
  case whole => exact ⟨List.cons_ne_nil _ _, fun x hx => hdigits x (List.mem_of_mem_take hx)⟩
  case leading =>
    intro h
    obtain rfl : c = '0' := Option.some.inj h
    rfl
  case places =>
    intro ds hds
    rw [Option.mem_def, Option.ite_none_left_eq_some] at hds
    obtain ⟨hmore, ⟨⟩⟩ := hds
    refine ⟨?_, fun x hx => hdigits x (List.mem_of_mem_drop hx)⟩
    rw [ne_eq, ← List.length_eq_zero_iff, List.length_drop]
    omega
  case power =>
    rintro p ⟨⟩
    exact isDigits_digits power

/-- A double is written as numbers are. -/
theorem exists_text_float {f : FloatFormat} (x : FiniteFloat f) : ∃ t : NumberText, t.InOrder ∧
    x.dataText = signed x.negative t.chars := by
  have hzero : (x.shortest .even).digits = 0 → (x.shortest .even).exponent = 0 := by
    intro h
    rw [shortest_of_digits_eq_zero h]
  rw [FiniteFloat.dataText]
  generalize x.shortest .even = d at hzero ⊢
  split
  · by_cases hwhole : 0 ≤ d.exponent
    · refine ⟨_, inOrder_whole hzero, ?_⟩
      rw [if_pos hwhole, Scientific.inPlace, if_pos hwhole]
      rfl
    · rw [if_neg hwhole, Scientific.inPlace, if_neg hwhole]
      by_cases hfew : (-d.exponent).toNat < (Numeral.digits d.digits).length
      · refine ⟨_, inOrder_among (by omega) hfew, ?_⟩
        simp only [hfew, if_true, NumberText.chars, NumberText.placesText, NumberText.powerText,
          Option.elim_some, Option.elim_none, List.append_nil]
      · refine ⟨_, inOrder_behind ((-d.exponent).toNat - (Numeral.digits d.digits).length) d.digits, ?_⟩
        simp only [hfew, if_false, NumberText.chars, NumberText.placesText, NumberText.powerText,
          Option.elim_some, Option.elim_none, List.append_nil, List.singleton_append]
  · let power := d.exponent + ((Numeral.digits d.digits).length : Int) - 1
    refine ⟨_, inOrder_power d.digits power.natAbs (decide (power < 0)), ?_⟩
    have hplaces : (if (Numeral.digits d.digits).length ≤ 1 then []
        else '.' :: (Numeral.digits d.digits).drop 1) =
        (if (Numeral.digits d.digits).length ≤ 1 then none
          else some ((Numeral.digits d.digits).drop 1)).elim [] ('.' :: ·) := by
      split <;> rfl
    rw [Scientific.withExponent, NumberText.chars, NumberText.placesText, NumberText.powerText,
      ← hplaces, List.append_assoc]
    simp only [Option.elim_some, decide_eq_true_eq]
    rfl

end ChatCommands.Json
