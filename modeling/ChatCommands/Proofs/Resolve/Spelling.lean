import ChatCommands.Proofs.Number.Shortest
import ChatCommands.Proofs.Number.WholeNumber
import ChatCommands.Proofs.Resolve.Alone

/-!
# Typed values and their spelling

A typed value that is no text is judged like its text as a word, except that integers
and decimals take more from a number with places than its shortest digits say.  An
integer is judged like every numeral of it.
-/

namespace ChatCommands

/-- Two outcomes come to the same: both are refusals, or their values are equal. -/
def SameOutcome {ε δ : Type} : Except ε Value → Except δ Value → Prop
  | .ok v, .ok w => v = w ∨ v.same w = true
  | .error _, .error _ => True
  | _, _ => False

theorem sameOutcome_of_toOption_eq {ε δ : Type} {x : Except ε Value} {y : Except δ Value}
    (h : x.toOption = y.toOption) : SameOutcome x y := by
  cases x with
  | error e =>
      cases y with
      | error e' => trivial
      | ok w => cases h
  | ok v =>
      cases y with
      | error e' => cases h
      | ok w => exact .inl (Option.some.inj h)

theorem sameOutcome_mapError_left {ε ε' δ : Type} {f : ε → ε'} {x : Except ε Value}
    {y : Except δ Value} : SameOutcome (x.mapError f) y ↔ SameOutcome x y := by
  cases x with
  | ok v =>
      cases y with
      | ok w => rfl
      | error e => rfl
  | error e =>
      cases y with
      | ok w => rfl
      | error e' => rfl

theorem sameOutcome_mapError_right {ε δ δ' : Type} {g : δ → δ'} {x : Except ε Value}
    {y : Except δ Value} : SameOutcome x (y.mapError g) ↔ SameOutcome x y := by
  cases y with
  | ok w =>
      cases x with
      | ok v => rfl
      | error e => rfl
  | error e =>
      cases x with
      | ok v => rfl
      | error e' => rfl

/-- A value of an option that is a text. -/
def OptionValue.isString : OptionValue → Bool
  | string _ => true
  | _ => false

/-- A value of an option that is a number with places. -/
def OptionValue.isNumber : OptionValue → Bool
  | number _ => true
  | _ => false

/-- Whether a type holds numbers that are not binary. -/
def ParamType.isExact : ParamType → Bool
  | integer _ | decimal => true
  | _ => false

namespace Text

theorem trim_intText (n : Int) : trim (Numeral.intText n) = Numeral.intText n := by
  have hdigits : ∀ {m : Nat} {c : Char}, c ∈ (Numeral.text m).toList → isBlank c = false := by
    intro m c hc
    rw [Numeral.text, String.toList_ofList] at hc
    exact isBlank_of_isDigit (Numeral.isDigit_of_mem_digits hc)
  apply trim_of_not_blank
  intro c hc
  cases n with
  | ofNat m => exact hdigits hc
  | negSucc m =>
      rw [Numeral.intText, String.toList_append] at hc
      rcases List.mem_append.mp hc with hc | hc
      · have hminus : c = '-' := by simpa using hc
        rw [hminus]
        decide
      · exact hdigits hc

theorem not_blank_of_mem_signed {negative : Bool} {cs : List Char}
    (h : ∀ c ∈ cs, isBlank c = false) : ∀ c ∈ (signed negative cs).toList, isBlank c = false := by
  intro c hc
  rw [signed, String.toList_ofList] at hc
  cases negative with
  | true =>
      rcases List.mem_cons.mp hc with rfl | hc
      · decide
      · exact h c hc
  | false => exact h c hc

theorem trim_floatText {f : FloatFormat} (x : BinaryFloat f) : trim x.text = x.text := by
  apply trim_of_not_blank
  cases x with
  | finite x =>
      refine not_blank_of_mem_signed ?_
      intro c hc
      rcases Scientific.mem_inPlace hc with hdigit | rfl
      · exact isBlank_of_isDigit hdigit
      · decide
  | infinite negative =>
      have hword : IsWord "inf" := by decide
      exact not_blank_of_mem_signed hword.not_blank
  | nan =>
      have hword : IsWord "NaN" := by decide
      exact hword.not_blank

end Text

namespace Resolve

variable {p : Param} {n : SizedInt .w64} {s : String} {span : Span}

/-! ## Numerals -/

/-- A numeral within 64 bits is within 128 bits. -/
theorem integerOf_word (h : SizedInt.read? .w64 s.toList = some n) (htrim : Text.trim s = s) :
    integerOf (.word ⟨s, span⟩) = .ok n.val := by
  have hread := SizedInt.readInt?_of_read? h
  have hbound := n.natAbs_le
  have hrange : Numeral.minInt128 ≤ n.val ∧ n.val ≤ Numeral.maxInt128 := by
    rw [Numeral.minInt128, Numeral.maxInt128]
    omega
  have hsigned : Numeral.readSigned? Numeral.minInt128 Numeral.maxInt128 s.toList = some n.val := by
    rw [Numeral.readSigned?, hread, Option.filter_some, if_pos (by simpa using hrange)]
  change integerOfText s = _
  rw [integerOfText, htrim, hsigned]

theorem decimalOf_word (h : SizedInt.read? .w64 s.toList = some n) (htrim : Text.trim s = s) :
    decimalOf (.word ⟨s, span⟩) = decimalOf (.typed (.integer n)) := by
  change Decimal.read? (Text.trim s) = Decimal.ofInt? n.val
  rw [htrim, Decimal.read?_of_sizedInt h]

theorem doubleOf_word (h : SizedInt.read? .w64 s.toList = some n) (htrim : Text.trim s = s)
    (span : Span) :
    ∃ negative, doubleOf (.word ⟨s, span⟩) = some (.round .double negative n.val.natAbs 1) ∧
      (n.val ≠ 0 → negative = decide (n.val < 0)) ∧
      (s.toList.head? ≠ some '-' → negative = false) := by
  obtain ⟨negative, hread, hsign, hzero⟩ := Double.read?_of_sizedInt h
  refine ⟨negative, ?_, hsign, hzero⟩
  change Double.read? (Text.trim s) = _
  rw [htrim, hread]

theorem doubleOf_intText :
    doubleOf (.word ⟨Numeral.intText n.val, span⟩) = doubleOf (.typed (.integer n)) := by
  obtain ⟨negative, hread, hsign, hzero⟩ :=
    doubleOf_word n.read?_intText (Text.trim_intText n.val) span
  have hnegative : negative = decide (n.val < 0) := by
    by_cases hn : n.val = 0
    · rw [hn] at hzero ⊢
      exact hzero (by decide)
    · exact hsign hn
  rw [hread, hnegative, doubleOf, BinaryFloat.ofInt]

/-! ## Values that are no texts -/

theorem judgeBool_typed {o : OptionValue} (h : o.isString = false) (span : Span) :
    judgeBool (.typed o) = judgeBool (.word ⟨o.text, span⟩) := by
  cases o with
  | boolean b =>
      have htrue : Text.asciiLower (Text.trim "true") = "true" := by decide +kernel
      have hfalse : Text.asciiLower (Text.trim "false") = "false" := by decide +kernel
      have hword : ∀ s : String, judgeBool (.word ⟨s, span⟩) =
          if trueWords.contains (Text.asciiLower (Text.trim s)) then .ok (.bool true)
          else if falseWords.contains (Text.asciiLower (Text.trim s)) then .ok (.bool false)
          else .error (.argument (.notAChoice s ["true", "false"])) := fun _ => rfl
      cases b with
      | true =>
          have htext : (OptionValue.boolean true).text = "true" := rfl
          rw [htext, hword, htrue]
          rfl
      | false =>
          have htext : (OptionValue.boolean false).text = "false" := rfl
          rw [htext, hword, hfalse]
          rfl
  | string text => cases h
  | _ => rfl

theorem integerOf_typed {o : OptionValue} (hnumber : o.isNumber = false) (span : Span) :
    integerOf (.typed o) = integerOf (.word ⟨o.text, span⟩) := by
  cases o with
  | integer n =>
      have hword : integerOf (.word ⟨Numeral.intText n.val, span⟩) = .ok n.val :=
        integerOf_word n.read?_intText (Text.trim_intText n.val)
      exact hword.symm
  | number x => cases hnumber
  | _ => dsimp only [integerOf, Piece.text]

/-- A double keeps what its digits say, since they are read back. -/
theorem doubleOf_typed (o : OptionValue) (span : Span) :
    doubleOf (.typed o) = doubleOf (.word ⟨o.text, span⟩) := by
  cases o with
  | integer n =>
      rw [OptionValue.text]
      exact doubleOf_intText.symm
  | number x =>
      have hword : doubleOf (.word ⟨x.text, span⟩) = Double.read? (Text.trim x.text) := rfl
      rw [OptionValue.text, hword, Text.trim_floatText, Double.read?_text]
      rfl
  | _ => dsimp only [doubleOf, Piece.text]

theorem decimalOf_typed {o : OptionValue} (hnumber : o.isNumber = false) (span : Span) :
    decimalOf (.typed o) = decimalOf (.word ⟨o.text, span⟩) := by
  cases o with
  | integer n =>
      exact (decimalOf_word n.read?_intText (Text.trim_intText n.val)).symm
  | number x => cases hnumber
  | _ => dsimp only [decimalOf, Piece.text]

theorem items_typed {o : OptionValue} (h : o.isString = false) (span : Span) :
    items p [.typed o] = items p [.word ⟨o.text, span⟩] := by
  unfold items
  split
  · rfl
  · cases o with
    | string text => cases h
    | _ => rfl

end Resolve

/-- A typed value that is no text is judged like its text, unless it is a number with
places for a type of other numbers. -/
theorem Slot.judgeOne_typed (slot : Slot) {o : OptionValue} (hstring : o.isString = false)
    (hnumber : slot.param.type.isExact = true → o.isNumber = false) (span : Span) :
    slot.reading.judgeOne (.typed o) = slot.reading.judgeOne (.word ⟨o.text, span⟩) := by
  have htext : (Piece.typed o).text = (Piece.word ⟨o.text, span⟩).text := rfl
  have hown : ∀ own self judge, (slot.ownReading own self judge).judgeOne (.typed o) =
      (slot.ownReading own self judge).judgeOne (.word ⟨o.text, span⟩) := by
    intro own self judge
    unfold ownReading
    split
    · rfl
    · rfl
  cases htype : slot.param.type with
      (rw [htype] at hnumber; simp only [reading, htype])
  | bool =>
      simp only [Reading.judgeOne]
      rw [Resolve.judgeBool_typed hstring span]
  | integer width =>
      simp only [Reading.judgeOne, Resolve.judgeInteger, htext,
        Resolve.integerOf_typed (hnumber rfl) span]
  | float32 | float64 | number =>
      simp only [Reading.judgeOne, Resolve.judgeFloat, htext,
        Resolve.doubleOf_typed o span]
  | decimal =>
      simp only [Reading.judgeOne, Resolve.judgeDecimal, htext,
        Resolve.decimalOf_typed (hnumber rfl) span]
  | string =>
      unfold stringReading
      split
      · rfl
      · split
        · rfl
        · rfl
  | strings =>
      simp only [Reading.judgeOne, Resolve.items_typed hstring span]
  | user => exact hown _ _ _
  | member => exact hown _ _ _
  | channel => exact hown _ _ _
  | named name =>
      unfold memberReading
      split
      · rfl
      · rfl
  | _ => rfl

/-! ## Equal numbers -/

namespace Resolve

variable {p : Param} {a b : Piece}

theorem toOption_judgeInteger {n : Int} (ha : integerOf a = .ok n) (hb : integerOf b = .ok n) :
    (judgeInteger p a).toOption = (judgeInteger p b).toOption := by
  simp only [judgeInteger, ha, hb, bind, Except.bind]
  split
  · rfl
  · split
    · rfl
    · split
      · rfl
      · rfl

theorem toOption_judgeFloat (h : doubleOf a = doubleOf b) :
    (judgeFloat p a).toOption = (judgeFloat p b).toOption := by
  simp only [judgeFloat, h, bind, Except.bind]
  cases doubleOf b with
  | none => rfl
  | some x =>
      cases x with
      | finite x =>
          dsimp only
          split
          · rfl
          · split
            · rfl
            · rfl
      | infinite negative => rfl
      | nan => rfl

/-- The two zeros are judged alike. -/
theorem sameOutcome_judgeFloat_zero {negative sign : Bool}
    (ha : doubleOf a = some (.finite (Double.zero negative)))
    (hb : doubleOf b = some (.finite (Double.zero sign))) :
    SameOutcome (judgeFloat p a) (judgeFloat p b) := by
  have hunits : (Double.zero negative).units = (Double.zero sign).units := by
    rw [Double.zero, Double.zero, BinaryFloat.units_zero, BinaryFloat.units_zero]
  simp only [judgeFloat, ha, hb, bind, Except.bind, BinaryFloat.lt_congr_left hunits,
    BinaryFloat.lt_congr_right hunits]
  split
  · trivial
  · split
    · trivial
    · split
      · refine .inr ?_
        simp [Double.convert_zero, Value.same, BinaryFloat.numericEq, FiniteFloat.numericEq,
          BinaryFloat.units_zero]
      · refine .inr ?_
        simp [Value.same, BinaryFloat.numericEq, FiniteFloat.numericEq, hunits]

theorem toOption_judgeDecimal (h : decimalOf a = decimalOf b) :
    (judgeDecimal p a).toOption = (judgeDecimal p b).toOption := by
  simp only [judgeDecimal, h, bind, Except.bind]
  cases decimalOf b with
  | none => rfl
  | some d =>
      dsimp only
      generalize p.minBound.bind (·.toDecimal?) = least
      generalize p.maxBound.bind (·.toDecimal?) = greatest
      cases least with
      | none =>
          cases greatest with
          | none => rfl
          | some greatest =>
              dsimp only
              split
              · rfl
              · rfl
      | some least =>
          dsimp only
          split
          · rfl
          · cases greatest with
            | none => rfl
            | some greatest =>
                dsimp only
                split
                · rfl
                · rfl

/-- A numeral is judged as the double nearest to its integer is. -/
theorem sameOutcome_judgeFloat {n : SizedInt .w64} {s : String} {span : Span}
    (hread : SizedInt.read? .w64 s.toList = some n) (htrim : Text.trim s = s) :
    SameOutcome (judgeFloat p (.typed (.integer n))) (judgeFloat p (.word ⟨s, span⟩)) := by
  obtain ⟨negative, hword, hsign, -⟩ := doubleOf_word hread htrim span
  have htyped : doubleOf (.typed (.integer n)) =
      some (.round .double (decide (n.val < 0)) n.val.natAbs 1) := rfl
  by_cases hn : n.val = 0
  · have hzero : ∀ sign, BinaryFloat.round .double sign n.val.natAbs 1 =
        .finite (Double.zero sign) := by
      intro sign
      rw [hn]
      exact BinaryFloat.round_zero (by decide) sign Nat.one_pos
    rw [hzero] at hword htyped
    exact sameOutcome_judgeFloat_zero htyped hword
  · rw [hsign hn, ← htyped] at hword
    exact sameOutcome_of_toOption_eq (toOption_judgeFloat hword.symm)

end Resolve

namespace Slot

open Resolve

variable {slot : Slot} {s : String} {span : Span}

/-- For every type that is shown as a number, an integer is judged like its numerals. -/
theorem sameOutcome_integer (hnumeric : slot.param.type.optionType.isNumeric = true)
    {n : SizedInt .w64} (hread : SizedInt.read? .w64 s.toList = some n)
    (htrim : Text.trim s = s) :
    SameOutcome (slot.reading.judgeOne (.typed (.integer n)))
      (slot.reading.judgeOne (.word ⟨s, span⟩)) := by
  cases htype : slot.param.type with
      (rw [htype] at hnumeric; simp only [reading, htype, Reading.judgeOne])
  | integer width =>
      exact sameOutcome_of_toOption_eq (toOption_judgeInteger rfl (integerOf_word hread htrim))
  | float32 | float64 | number => exact sameOutcome_judgeFloat hread htrim
  | decimal =>
      exact sameOutcome_of_toOption_eq (toOption_judgeDecimal (decimalOf_word hread htrim).symm)
  | _ => cases hnumeric

/-- For every type of binary numbers, a number is judged like a text that is read as
it. -/
theorem sameOutcome_number (hnumeric : slot.param.type.optionType.isNumeric = true)
    (hexact : slot.param.type.isExact = false) {x : Double} (hread : Double.read? s = some x)
    (htrim : Text.trim s = s) :
    SameOutcome (slot.reading.judgeOne (.typed (.number x)))
      (slot.reading.judgeOne (.word ⟨s, span⟩)) := by
  have hword : doubleOf (.word ⟨s, span⟩) = some x := by
    change Double.read? (Text.trim s) = _
    rw [htrim, hread]
  have htyped : doubleOf (.typed (.number x)) = some x := rfl
  cases htype : slot.param.type with
      (rw [htype] at hnumeric hexact; simp only [reading, htype, Reading.judgeOne])
  | integer width => cases hexact
  | float32 | float64 | number =>
      exact sameOutcome_of_toOption_eq (toOption_judgeFloat (htyped.trans hword.symm))
  | decimal => cases hexact
  | _ => cases hnumeric

end Slot

end ChatCommands
