import ChatCommands.Proofs.Number.Rounding
import ChatCommands.Proofs.Number.WholeNumber

/-!
# Shortest decimals

The shortest decimal of a finite number lies among the reals that round to the number,
and so the text of a double is read as that double.
-/

namespace ChatCommands

/-! ## Digits -/

namespace Numeral

theorem lt_pow_length (n : Nat) : n < 10 ^ (digits n).length :=
  (Nat.length_toDigits_le_iff (by decide) (List.length_pos_iff.mpr (digits_ne_nil n))).mp
    (Nat.le_refl _)

theorem pow_length_le {n : Nat} (h : n ≠ 0) : 10 ^ ((digits n).length - 1) ≤ n := by
  by_cases hone : (digits n).length - 1 = 0
  · rw [hone]
    omega
  · have hlength : ¬ (digits n).length ≤ (digits n).length - 1 := by omega
    exact Nat.le_of_not_lt fun hlt => hlength <|
      (Nat.length_toDigits_le_iff (by decide) (by omega)).mpr hlt

theorem foldl_zeros (k start : Nat) :
    (List.replicate k '0').foldl (fun n c => 10 * n + (c.toNat - '0'.toNat)) start =
      start * 10 ^ k := by
  induction k generalizing start with
  | zero => simp
  | succ k ih =>
      rw [List.replicate_succ, List.foldl_cons, ih, Nat.sub_self, Nat.add_zero, Nat.pow_succ]
      ring

theorem value_append_zeros (ds : List Char) (k : Nat) :
    value (ds ++ List.replicate k '0') = value ds * 10 ^ k := by
  rw [value, List.foldl_append, foldl_zeros, value]

theorem value_zeros_append (k : Nat) (ds : List Char) :
    value (List.replicate k '0' ++ ds) = value ds := by
  rw [value, List.foldl_append, foldl_zeros, Nat.zero_mul, value]

theorem isDigit_of_mem_zeros {k : Nat} {c : Char} (h : c ∈ List.replicate k '0') :
    c.isDigit = true := by
  rw [List.eq_of_mem_replicate h]
  decide

end Numeral

/-! ## Decimals -/

namespace Scientific

variable {d : Scientific}

theorem denominator_pos (d : Scientific) : 0 < d.denominator :=
  Nat.pow_pos (by decide)

/-- A zero at the end of the digits may as well stand in the exponent. -/
theorem numerator_div_ten (h : d.digits % 10 = 0) :
    numerator ⟨d.digits / 10, d.exponent + 1⟩ * d.denominator =
      d.numerator * denominator ⟨d.digits / 10, d.exponent + 1⟩ := by
  obtain ⟨n, hn⟩ := Nat.dvd_of_mod_eq_zero h
  have hdiv : d.digits / 10 = n := by omega
  simp only [numerator, denominator, hdiv, Nat.pow_eq]
  rcases Int.lt_or_le d.exponent 0 with hneg | hpos
  · obtain ⟨k, hk⟩ : ∃ k : Nat, d.exponent = -((k : Int) + 1) := ⟨(-d.exponent - 1).toNat, by omega⟩
    have hleft : (d.exponent + 1).toNat = 0 := by omega
    have hexp : (-d.exponent).toNat = k + 1 := by omega
    have hnum : d.exponent.toNat = 0 := by omega
    have hright : (-(d.exponent + 1)).toNat = k := by omega
    rw [hleft, hexp, hnum, hright, hn]
    ring
  · obtain ⟨k, hk⟩ := Int.eq_ofNat_of_zero_le hpos
    have hleft : (d.exponent + 1).toNat = k + 1 := by omega
    have hexp : (-d.exponent).toNat = 0 := by omega
    have hnum : d.exponent.toNat = k := by omega
    have hright : (-(d.exponent + 1)).toNat = 0 := by omega
    rw [hleft, hexp, hnum, hright, hn]
    ring

/-- A decimal whose leading digit is far behind the point is small. -/
theorem numerator_le {k : Nat} (h : d.exponent + ((Numeral.digits d.digits).length : Int) ≤ -k) :
    d.numerator * 10 ^ k ≤ d.denominator := by
  have hlt := Numeral.lt_pow_length d.digits
  generalize (Numeral.digits d.digits).length = length at *
  have hnum : d.exponent.toNat = 0 := by omega
  have hpow : Nat.pow 10 0 = 1 := rfl
  rw [numerator, denominator, hnum, hpow, Nat.mul_one]
  calc d.digits * 10 ^ k ≤ 10 ^ length * 10 ^ k := Nat.mul_le_mul_right _ (Nat.le_of_lt hlt)
    _ = 10 ^ (length + k) := (Nat.pow_add 10 length k).symm
    _ ≤ 10 ^ (-d.exponent).toNat := Nat.pow_le_pow_right (by decide) (by omega)

/-- A decimal whose leading digit is far before the point is large. -/
theorem denominator_le {k : Nat} (hne : d.digits ≠ 0)
    (h : (k : Int) < d.exponent + ((Numeral.digits d.digits).length : Int)) :
    d.denominator * 10 ^ k ≤ d.numerator := by
  have hle := Numeral.pow_length_le hne
  have hpos : 0 < (Numeral.digits d.digits).length :=
    List.length_pos_iff.mpr (Numeral.digits_ne_nil d.digits)
  generalize (Numeral.digits d.digits).length = length at *
  have hbound : (-d.exponent).toNat + k ≤ length - 1 + d.exponent.toNat := by omega
  calc d.denominator * 10 ^ k = 10 ^ ((-d.exponent).toNat + k) := (Nat.pow_add 10 _ k).symm
    _ ≤ 10 ^ (length - 1 + d.exponent.toNat) := Nat.pow_le_pow_right (by decide) hbound
    _ = 10 ^ (length - 1) * 10 ^ d.exponent.toNat := Nat.pow_add 10 _ _
    _ ≤ d.digits * 10 ^ d.exponent.toNat := Nat.mul_le_mul_right _ hle

/-- The digits in place are digits alone, or digits with a point among them. -/
theorem inPlace_cases (d : Scientific) :
    (∃ ds : List Char, ds ≠ [] ∧ (∀ c ∈ ds, c.isDigit = true) ∧ d.inPlace = ds ∧
        Numeral.value ds = d.numerator ∧ d.denominator = 1) ∨
      ∃ ds es : List Char, ds ≠ [] ∧ (∀ c ∈ ds, c.isDigit = true) ∧
        (∀ c ∈ es, c.isDigit = true) ∧ d.inPlace = ds ++ '.' :: es ∧
        Numeral.value (ds ++ es) = d.digits ∧ d.exponent = -(es.length : Int) := by
  have hdigits : ∀ c ∈ Numeral.digits d.digits, c.isDigit = true :=
    fun _ => Numeral.isDigit_of_mem_digits
  have hne := Numeral.digits_ne_nil d.digits
  by_cases hwhole : 0 ≤ d.exponent
  · refine .inl ⟨Numeral.digits d.digits ++ List.replicate d.exponent.toNat '0', by simp [hne],
      ?_, ?_, ?_, ?_⟩
    · intro c hc
      exact (List.mem_append.mp hc).elim (hdigits c) Numeral.isDigit_of_mem_zeros
    · rw [inPlace, if_pos hwhole]
    · rw [Numeral.value_append_zeros, Numeral.value_digits]
      rfl
    · have hnone : (-d.exponent).toNat = 0 := by omega
      rw [denominator, hnone]
  · by_cases hfew : (-d.exponent).toNat < (Numeral.digits d.digits).length
    · let point := (Numeral.digits d.digits).length - (-d.exponent).toNat
      refine .inr ⟨(Numeral.digits d.digits).take point, (Numeral.digits d.digits).drop point,
        ?_, fun c hc => hdigits c (List.mem_of_mem_take hc),
        fun c hc => hdigits c (List.mem_of_mem_drop hc), ?_, ?_, ?_⟩
      · intro hnil
        have hlength := congrArg List.length hnil
        rw [List.length_take, List.length_nil] at hlength
        omega
      · rw [inPlace, if_neg hwhole, if_pos hfew]
      · rw [List.take_append_drop, Numeral.value_digits]
      · rw [List.length_drop]
        omega
    · refine .inr ⟨['0'], List.replicate ((-d.exponent).toNat - (Numeral.digits d.digits).length)
        '0' ++ Numeral.digits d.digits, by simp, ?_, ?_, ?_, ?_, ?_⟩
      · intro c hc
        rw [List.mem_singleton.mp hc]
        decide
      · intro c hc
        exact (List.mem_append.mp hc).elim Numeral.isDigit_of_mem_zeros (hdigits c)
      · rw [inPlace, if_neg hwhole, if_neg hfew]
        rfl
      · have hzero : ['0'] = List.replicate 1 '0' := rfl
        rw [hzero, Numeral.value_zeros_append, Numeral.value_zeros_append, Numeral.value_digits]
      · rw [List.length_append, List.length_replicate]
        omega

theorem mem_inPlace {c : Char} (h : c ∈ d.inPlace) : c.isDigit = true ∨ c = '.' := by
  rcases d.inPlace_cases with ⟨ds, -, hds, hplace, -⟩ | ⟨ds, es, -, hds, hes, hplace, -⟩
  · exact .inl (hds c (hplace ▸ h))
  · rw [hplace] at h
    rcases List.mem_append.mp h with h | h
    · exact .inl (hds c h)
    · exact (List.mem_cons.mp h).elim .inr fun h => .inl (hes c h)

theorem exists_inPlace_eq_cons (d : Scientific) :
    ∃ c cs, d.inPlace = c :: cs ∧ c.isDigit = true := by
  rcases d.inPlace_cases with ⟨ds, hne, hds, hplace, -⟩ | ⟨ds, es, hne, hds, -, hplace, -⟩
  · obtain ⟨c, cs, rfl⟩ := List.exists_cons_of_ne_nil hne
    exact ⟨c, cs, hplace, hds c List.mem_cons_self⟩
  · obtain ⟨c, cs, rfl⟩ := List.exists_cons_of_ne_nil hne
    exact ⟨c, cs ++ '.' :: es, hplace, hds c List.mem_cons_self⟩

end Scientific

/-! ## The shortest decimal -/

namespace FiniteFloat

variable {f : FloatFormat} {x : FiniteFloat f} {d : Scientific}

theorem Holds.strip (h : x.Holds d.numerator d.denominator) :
    x.Holds d.strip.numerator d.strip.denominator := by
  have hgo : ∀ (fuel : Nat) (d : Scientific), x.Holds d.numerator d.denominator →
      x.Holds (Scientific.strip.go fuel d).numerator (Scientific.strip.go fuel d).denominator := by
    intro fuel
    induction fuel with
    | zero => exact fun d h => h
    | succ fuel ih =>
        intro d h
        unfold Scientific.strip.go
        split
        next hzero =>
          simp only [Bool.and_eq_true, beq_iff_eq] at hzero
          exact ih _ (h.of_eq d.denominator_pos (Scientific.denominator_pos _)
            (Scientific.numerator_div_ten hzero.2))
        next => exact h
  exact hgo _ d h

theorem readsBack_of_onGrid {tie : Tie} {count : Nat} (h : x.onGrid tie count = some d) :
    x.readsBack d = true := by
  unfold onGrid at h
  dsimp only at h
  split at h
  next => cases h
  next hlow _ => exact Option.some.inj h ▸ hlow
  next _ hhigh => exact Option.some.inj h ▸ hhigh
  next hlow hhigh =>
    split at h
    next => exact Option.some.inj h ▸ hlow
    next => exact Option.some.inj h ▸ hhigh
    next => exact Option.some.inj h ▸ hhigh
    next =>
      rw [← Option.some.inj h]
      split
      · exact hlow
      · exact hhigh

/-- All digits of a number read back. -/
theorem holds_exact (h : x.magnitude ≠ 0) :
    x.Holds (x.magnitude * Nat.pow 5 f.unitBits) (Nat.pow 10 f.unitBits) := by
  have hten : 0 < Nat.pow 10 f.unitBits := Nat.pow_pos (by decide)
  have hvalue : x.magnitude * Nat.pow 5 f.unitBits * (4 * f.unitScale) =
      4 * x.magnitude * Nat.pow 10 f.unitBits := by
    have hpow : Nat.pow 10 f.unitBits = Nat.pow 5 f.unitBits * f.unitScale := by
      exact Nat.mul_pow 5 2 f.unitBits
    rw [hpow]
    ring
  have hgap := x.gap_pos
  have hlow : x.lowerEnd < 4 * x.magnitude := by
    unfold lowerEnd
    split
    · omega
    · omega
  have hhigh : 4 * x.magnitude < x.upperEnd := by
    unfold upperEnd
    omega
  have hlow' := Nat.mul_lt_mul_of_pos_right hlow hten
  have hhigh' := Nat.mul_lt_mul_of_pos_right hhigh hten
  rw [← hvalue] at hlow' hhigh'
  exact ⟨Nat.le_of_lt hlow', Nat.le_of_lt hhigh', .inr ⟨hlow', hhigh'⟩⟩

theorem holds_zero (h : x.lowerEnd = 0) : x.Holds 0 1 := by
  have hgap := x.gap_pos
  have hend := x.le_lowerEnd
  have hzero : x.significand = 0 := by
    by_contra hne
    have hle : 1 * x.gap ≤ x.significand * x.gap := Nat.mul_le_mul_right x.gap (by omega)
    omega
  have hfraction : x.fraction.val = 0 := by
    unfold significand at hzero
    split at hzero <;> omega
  exact ⟨by omega, by omega, .inl (by omega)⟩

/-- The shortest decimal of a number reads back. -/
theorem holds_shortest (x : FiniteFloat f) (tie : Tie) :
    x.Holds (x.shortest tie).numerator (x.shortest tie).denominator := by
  unfold shortest
  split
  next hzero =>
    refine holds_zero ?_
    rw [lowerEnd, hzero]
    omega
  next hpos =>
    split
    next d hd =>
      obtain ⟨n, -, hn⟩ := List.exists_of_findSome?_eq_some hd
      exact (readsBack_iff.mp (readsBack_of_onGrid hn)).strip
    next =>
      refine Holds.strip ?_
      have hexact := holds_exact hpos
      simpa [Scientific.numerator, Scientific.denominator] using hexact

end FiniteFloat

/-! ## Text -/

namespace Double

open FiniteFloat

theorem upperEnd_lt (x : FiniteFloat .double) :
    x.upperEnd < 10 ^ 400 * (4 * FloatFormat.double.unitScale) :=
  Nat.lt_of_le_of_lt x.upperEnd_le (by decide +kernel)

/-- A decimal among the reals of a double is read as that double. -/
theorem ofScientific_of_holds {x : FiniteFloat .double} {d : Scientific}
    (h : x.Holds d.numerator d.denominator) : ofScientific x.negative d = .finite x := by
  have hbits : 0 < FloatFormat.double.fractionBits := by decide
  have hsmall : 4 * FloatFormat.double.unitScale < 10 ^ 400 := by decide +kernel
  -- Exponents of more than 400 places are cut short.  Of the doubles only zero holds such a
  -- small quotient, and none such a large one.
  unfold ofScientific
  dsimp only
  split
  next htiny =>
    refine round_eq hbits Nat.one_pos (holds_zero ?_)
    by_contra hne
    have hlow : 1 * d.denominator ≤ x.lowerEnd * d.denominator :=
      Nat.mul_le_mul_right _ (Nat.one_le_iff_ne_zero.mpr hne)
    have hpos := d.denominator_pos
    rcases htiny with hzero | hleading
    · have hnum : d.numerator = 0 := by rw [Scientific.numerator, hzero, Nat.zero_mul]
      have hle := h.low
      rw [hnum, Nat.zero_mul] at hle
      omega
    · have hle : d.numerator * 10 ^ 400 ≤ d.denominator :=
        Scientific.numerator_le (k := 400) (by omega)
      have hlt : d.numerator * (4 * FloatFormat.double.unitScale) < d.denominator := by
        by_cases hnum : d.numerator = 0
        · rw [hnum, Nat.zero_mul]
          exact hpos
        · exact Nat.lt_of_lt_of_le
            (Nat.mul_lt_mul_of_pos_left hsmall (Nat.pos_of_ne_zero hnum)) hle
      have hle := h.low
      omega
  next hnormal =>
    rw [not_or] at hnormal
    split
    next hleading =>
      have hle : d.denominator * 10 ^ 400 ≤ d.numerator :=
        Scientific.denominator_le (k := 400) hnormal.1 (by omega)
      have hmul := Nat.mul_le_mul_right (4 * FloatFormat.double.unitScale) hle
      have hlt := Nat.mul_lt_mul_of_pos_right (upperEnd_lt x) d.denominator_pos
      have hcomm : d.denominator * 10 ^ 400 * (4 * FloatFormat.double.unitScale) =
          10 ^ 400 * (4 * FloatFormat.double.unitScale) * d.denominator := by
        rw [Nat.mul_assoc, Nat.mul_comm]
      rw [← hcomm] at hlt
      exact absurd (hmul.trans h.high) (Nat.not_le.mpr hlt)
    next => exact round_eq hbits d.denominator_pos h

theorem readScientific?_point {ds es : List Char} (hne : ds ≠ [])
    (hds : ∀ c ∈ ds, c.isDigit = true) (hes : ∀ c ∈ es, c.isDigit = true) :
    readScientific? (ds ++ '.' :: es) = some ⟨Numeral.value (ds ++ es), -(es.length : Int)⟩ := by
  have hwhole : (ds ++ '.' :: es).span Char.isDigit = (ds, '.' :: es) := by
    rw [List.span_eq_takeWhile_dropWhile, List.takeWhile_append_of_pos hds,
      List.dropWhile_append_of_pos hds]
    simp
  have hplaces : es.span Char.isDigit = (es, []) := by
    rw [List.span_eq_takeWhile_dropWhile, List.takeWhile_eq_self_iff.mpr hes,
      List.dropWhile_eq_nil_iff.mpr hes]
  rw [readScientific?, hwhole]
  simp only [hplaces]
  simp [hne]

/-- Digits in place are read as the decimal that they write. -/
theorem readScientific?_inPlace (d : Scientific) :
    ∃ d', readScientific? d.inPlace = some d' ∧ d'.numerator = d.numerator ∧
      d'.denominator = d.denominator := by
  rcases d.inPlace_cases with ⟨ds, hne, hds, hplace, hnum, hden⟩ |
    ⟨ds, es, hne, hds, hes, hplace, hvalue, hexponent⟩
  · rw [hplace, readScientific?_digits hne hds]
    refine ⟨_, rfl, ?_, hden.symm⟩
    rw [Scientific.numerator, hnum]
    exact Nat.mul_one _
  · refine ⟨d, ?_, rfl, rfl⟩
    rw [hplace, readScientific?_point hne hds hes, hvalue, ← hexponent]

/-- The text of a double is read as that double. -/
theorem read?_text (x : Double) : read? x.text = some x := by
  cases x with
  | nan => rfl
  | infinite negative =>
      cases negative with
      | true => rfl
      | false => rfl
  | finite x =>
      obtain ⟨d, hread, hnum, hden⟩ := readScientific?_inPlace (x.shortest .up)
      obtain ⟨c, cs, hcons, hc⟩ := (x.shortest .up).exists_inPlace_eq_cons
      have hholds : x.Holds d.numerator d.denominator := by
        rw [hnum, hden]
        exact x.holds_shortest .up
      have htext : read? (signed x.negative (x.shortest .up).inPlace) =
          (readScientific? (c :: cs)).map (ofScientific x.negative) := by
        refine read?_signed hc ?_
        rw [signed, String.toList_ofList, hcons]
        cases x.negative with
        | true => exact .inl ⟨rfl, rfl⟩
        | false => exact .inr ⟨.inr rfl, rfl⟩
      rw [BinaryFloat.text, htext, ← hcons, hread, Option.map_some, ofScientific_of_holds hholds]

end Double

end ChatCommands
