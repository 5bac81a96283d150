import ChatCommands.Proofs.Number.WholeNumber
import ChatCommands.Proofs.Resolve.IntegerRange
import ChatCommands.Proofs.Text.Words

/-!
# Numerals of any length

An integer may be written with any number of digits, but it is read into a word of 128 bits
before it is compared with the ends of its parameter.  A numeral is therefore taken for the
number that it is exactly as long as that number fits into the word, however many zeros stand in
front of it.  Beyond, a numeral is called no number at all, although it lies outside of the ends
of every parameter.
-/

namespace ChatCommands

/-- The sign of a numeral. -/
inductive Sign where
  | unwritten
  | plus
  | minus

/-- The characters of a sign. -/
def Sign.chars : Sign → List Char
  | unwritten => []
  | plus => ['+']
  | minus => ['-']

/-- An integer as it may be written: one or more digits behind an optional sign. -/
structure IntegerNumeral where
  sign : Sign
  digits : List Char
  digits_ne_nil : digits ≠ []
  isDigit_of_mem : ∀ c ∈ digits, c.isDigit = true

namespace IntegerNumeral

variable (numeral : IntegerNumeral)

/-- The characters of a numeral. -/
def text : String :=
  String.ofList (numeral.sign.chars ++ numeral.digits)

/-- The integer that is written. -/
def value : Int :=
  match numeral.sign with
  | .minus => -(Numeral.value numeral.digits : Int)
  | _ => Numeral.value numeral.digits

theorem isBlank_of_mem_text : ∀ c ∈ numeral.text.toList, Text.isBlank c = false := by
  intro c hc
  rw [text, String.toList_ofList] at hc
  rcases List.mem_append.mp hc with hsign | hdigit
  · revert hsign
    cases numeral.sign with
    | unwritten => exact fun hsign => absurd hsign List.not_mem_nil
    | plus =>
        intro hsign
        rw [List.mem_singleton.mp hsign]
        decide
    | minus =>
        intro hsign
        rw [List.mem_singleton.mp hsign]
        decide
  · exact Text.isBlank_of_isDigit (numeral.isDigit_of_mem c hdigit)

theorem read?_digits : Numeral.read? numeral.digits = some (Numeral.value numeral.digits) := by
  have hempty : numeral.digits.isEmpty = false := by
    rw [Bool.eq_false_iff, ne_eq, List.isEmpty_iff]
    exact numeral.digits_ne_nil
  have hall : numeral.digits.all Char.isDigit = true :=
    List.all_eq_true.mpr numeral.isDigit_of_mem
  rw [Numeral.read?, hempty, hall]
  rfl

theorem readInt?_text : Numeral.readInt? numeral.text.toList = some numeral.value := by
  have hunsigned : ∀ c : Char, c.isDigit = false → ∀ rest, numeral.digits ≠ c :: rest :=
    fun c hc => Numeral.ne_cons_of_isDigit numeral.isDigit_of_mem hc
  rw [text, String.toList_ofList, value]
  cases numeral.sign with
  | unwritten =>
      rw [Sign.chars, List.nil_append,
        Numeral.readInt?_unsigned (hunsigned '-' (by decide)) (hunsigned '+' (by decide)),
        read?_digits, Option.map_some]
  | plus =>
      rw [Sign.chars, List.singleton_append, Numeral.readInt?_plus, read?_digits, Option.map_some]
  | minus =>
      rw [Sign.chars, List.singleton_append, Numeral.readInt?_minus, read?_digits, Option.map_some]

/-- The number that is written fits into a word of 128 bits. -/
def FitsWord : Prop :=
  -2 ^ 127 ≤ numeral.value ∧ numeral.value < 2 ^ 127

instance : Decidable numeral.FitsWord :=
  inferInstanceAs (Decidable (_ ∧ _))

/-- A numeral is read as its number if there is room for that. -/
theorem readSigned?_text :
    Numeral.readSigned? Numeral.minInt128 Numeral.maxInt128 (Text.trim numeral.text).toList =
      if numeral.FitsWord then some numeral.value else none := by
  have hrange : (Numeral.minInt128 ≤ numeral.value && numeral.value ≤ Numeral.maxInt128) =
      decide numeral.FitsWord := by
    rw [← Bool.decide_and]
    refine decide_eq_decide.mpr ?_
    unfold FitsWord Numeral.minInt128 Numeral.maxInt128
    omega
  rw [Text.trim_of_not_blank numeral.isBlank_of_mem_text, Numeral.readSigned?, readInt?_text,
    Option.filter_some, hrange]
  simp only [decide_eq_true_eq]

/-- A word that consists of the numeral. -/
def word (span : Span) : Piece :=
  .word ⟨numeral.text, span⟩

theorem denotes_word (h : numeral.FitsWord) (span : Span) :
    (numeral.word span).Denotes numeral.value :=
  .text (fun _ => Piece.noConfusion) (fun _ => Piece.noConfusion)
    (numeral.readSigned?_text.trans (if_pos h))

/-- Without room for its number a numeral is not taken for one. -/
theorem integerOf_word (h : ¬ numeral.FitsWord) (span : Span) :
    Resolve.integerOf (numeral.word span) = .error (.argument (.notANumber numeral.text)) := by
  have htext : Resolve.integerOf (numeral.word span) = Resolve.integerOfText numeral.text := rfl
  rw [htext, Resolve.integerOfText, readSigned?_text, if_neg h]

end IntegerNumeral

namespace Slot

variable {slot : Slot} {supply rest : Supply} {w : Width} {numeral : IntegerNumeral} {span : Span}

/-- A numeral is recognised as the number that it is: it is never refused for not being one, it
is the value between the ends of the parameter, and outside of them it is refused with the end
on its side. -/
structure Recognises (slot : Slot) (w : Width) (supply : Supply) (numeral : IntegerNumeral)
    (span : Span) (rest : Supply) : Prop extends
    slot.JudgesExactly w supply (numeral.word span) rest numeral.value where
  isNumber : ∀ e parameter input, (Resolve.integer slot supply).1 = .error e →
    e.cause ≠ .invalidArgument parameter (.notANumber input)

theorem integer_notANumber (hpop : supply.pop slot.param.name = (some (numeral.word span), rest))
    (h : ¬ numeral.FitsWord) :
    Resolve.integer slot supply =
      (.error (rest.refuse slot.param.name (.notANumber numeral.text)), rest) := by
  rw [integer_eq hpop, Resolve.judgeInteger, numeral.integerOf_word h]
  rfl

theorem JudgesExactly.isNumber {piece : Piece} {n : Int}
    (h : slot.JudgesExactly w supply piece rest n) {e : CommandError}
    (he : (Resolve.integer slot supply).1 = .error e) (parameter input : String) :
    e.cause ≠ .invalidArgument parameter (.notANumber input) := by
  by_cases hlow : n < slot.param.lowerEnd w
  · rw [h.below hlow] at he
    rw [← Except.error.inj he, Supply.cause_refuse]
    simp
  · by_cases hhigh : slot.param.upperEnd w < n
    · rw [h.above (Int.not_lt.mp hlow) hhigh] at he
      rw [← Except.error.inj he, Supply.cause_refuse]
      simp
    · obtain ⟨m, -, hvalue⟩ := h.within (Int.not_lt.mp hlow) (Int.not_lt.mp hhigh)
      rw [hvalue] at he
      cases he

/-- An integer parameter recognises the numerals of the integers of 128 bits, of whatever
length, and no others. -/
theorem recognises_iff (htype : slot.param.type = .integer w)
    (hpop : supply.pop slot.param.name = (some (numeral.word span), rest)) :
    slot.Recognises w supply numeral span rest ↔ numeral.FitsWord := by
  constructor
  · intro h
    by_contra hlong
    have houtcome := integer_notANumber hpop hlong
    exact h.isNumber _ _ _ (congrArg Prod.fst houtcome) (Supply.cause_refuse _ _ _)
  · intro hfits
    have hexact := judgesExactly_of_denotes htype hpop (numeral.denotes_word hfits span)
    exact ⟨hexact, fun e parameter input he => hexact.isNumber he parameter input⟩

/-- The number 128 with more zeros in front than a word of 128 bits has digits. -/
def padded : IntegerNumeral :=
  ⟨.plus, List.replicate 60 '0' ++ ['1', '2', '8'], by decide, List.all_eq_true.mp rfl⟩

/-- A text that consists of a numeral alone. -/
def saying (numeral : IntegerNumeral) : Supply :=
  { input := .text numeral.text [⟨numeral.text, ⟨0, numeral.text.length⟩⟩] }

/-- The zeros make no difference, and the byte is exceeded. -/
theorem recognises_padded :
    offsetSlot.param.type = .integer .w8 ∧ padded.value = 128 ∧ padded.FitsWord ∧
      ∃ span rest,
        (saying padded).pop offsetSlot.param.name = (some (padded.word span), rest) ∧
        offsetSlot.Recognises .w8 (saying padded) padded span rest ∧
        ∃ e, (Resolve.integer offsetSlot (saying padded)).1 = .error e ∧
          e.cause = .invalidArgument "offset" (.aboveMaximum padded.text "127") := by
  have htype : offsetSlot.param.type = .integer .w8 := rfl
  have hvalue : padded.value = 128 := by decide +kernel
  have hfits : padded.FitsWord := by decide +kernel
  have hpop : (saying padded).pop offsetSlot.param.name = (some (padded.word _), _) := rfl
  have hrecognises := (recognises_iff htype hpop).mpr hfits
  obtain ⟨hlower, hupper⟩ := ends_offset
  have houtcome := hrecognises.above (by rw [hlower, hvalue]; decide) (by rw [hupper, hvalue]; decide)
  rw [hupper] at houtcome
  exact ⟨htype, hvalue, hfits, _, _, hpop, hrecognises, _, congrArg Prod.fst houtcome,
    Supply.cause_refuse _ _ _⟩

/-- An integer of 64 bits without bounds. -/
def count : Param :=
  ⟨"n", .integer .w64, false, none, Dict.empty, Dict.empty, [], [], none, none, none, none, none⟩

/-- The slot of the integer. -/
def countSlot : Slot :=
  Environment.painting.slot Environment.aside count true

/-- The least number above the integers of 128 bits. -/
def beyondWord : IntegerNumeral :=
  ⟨.unwritten, "170141183460469231731687303715884105728".toList, by decide +kernel,
    List.all_eq_true.mp rfl⟩

/-- A number above the greatest that the parameter accepts is called no number. -/
theorem not_recognises_beyondWord :
    countSlot.param.type = .integer .w64 ∧ countSlot.param.upperEnd .w64 < beyondWord.value ∧
      ∃ span rest,
        (saying beyondWord).pop countSlot.param.name = (some (beyondWord.word span), rest) ∧
        Resolve.integer countSlot (saying beyondWord) =
          (.error (rest.refuse "n" (.notANumber "170141183460469231731687303715884105728")),
            rest) ∧
        ¬ countSlot.Recognises .w64 (saying beyondWord) beyondWord span rest := by
  have hlong : ¬ beyondWord.FitsWord := by decide +kernel
  have hpop : (saying beyondWord).pop countSlot.param.name = (some (beyondWord.word _), _) := rfl
  have houtcome := integer_notANumber hpop hlong
  refine ⟨rfl, by decide +kernel, _, _, hpop, houtcome, fun h => ?_⟩
  exact h.isNumber _ _ _ (congrArg Prod.fst houtcome) (Supply.cause_refuse _ _ _)

end Slot

end ChatCommands
