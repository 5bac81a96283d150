import ChatCommands.Proofs.Resolve.Reading
import ChatCommands.Proofs.Text.Words

/-!
# Agreement of outcomes

What it means that two resolutions come to the same although their inputs have
different forms.  Errors are compared without the places to which they point.  A
word of a text and an option that carries the same word are alike, and no
standard resolver tells alike pieces apart.
-/

namespace ChatCommands

/-! ## Outcomes -/

/-- An error without the text and the place that it concerns. -/
def CommandError.unplaced (error : CommandError) : CommandError :=
  { error with source := none, span := none }

/-- Two outcomes agree: their results are related, or both are the same error,
perhaps at different places. -/
def Agree {α β : Type} (R : α → β → Prop) : Except CommandError α → Except CommandError β → Prop
  | .ok a, .ok b => R a b
  | .error e, .error f => e.unplaced = f.unplaced
  | _, _ => False

namespace Agree

variable {α β γ δ : Type} {R : α → β → Prop} {x : Except CommandError α} {y : Except CommandError β}

theorem bind {S : γ → δ → Prop} {f : α → Except CommandError γ} {g : β → Except CommandError δ}
    (h : Agree R x y) (hfg : ∀ a b, R a b → Agree S (f a) (g b)) : Agree S (x >>= f) (y >>= g) := by
  cases x with
  | error e =>
      cases y with
      | error e' => exact h
      | ok b => exact h.elim
  | ok a =>
      cases y with
      | error e' => exact h.elim
      | ok b => exact hfg a b h

theorem map {S : γ → δ → Prop} {f : α → γ} {g : β → δ} (h : Agree R x y)
    (hfg : ∀ a b, R a b → S (f a) (g b)) : Agree S (x.map f) (y.map g) := by
  cases x with
  | error e =>
      cases y with
      | error e' => exact h
      | ok b => exact h.elim
  | ok a =>
      cases y with
      | error e' => exact h.elim
      | ok b => exact hfg a b h

theorem mapError_unplaced {x y : Except CommandError α} (h : Agree Eq x y) :
    x.mapError CommandError.unplaced = y.mapError CommandError.unplaced := by
  cases x with
  | error e =>
      cases y with
      | error e' => exact congrArg Except.error h
      | ok b => exact h.elim
  | ok a =>
      cases y with
      | error e' => exact h.elim
      | ok b => exact congrArg Except.ok h

end Agree

theorem Supply.unplaced_refuse (s : Supply) (parameter : String) (fault : ArgumentFault) :
    (s.refuse parameter fault).unplaced = .invalidArgument parameter fault := by
  unfold refuse
  simp only
  split
  · rfl
  · rfl

/-! ## Pieces that say the same -/

/-- A word of a text, and the same text behind it as a word or as the value of an
option. -/
inductive Piece.Alike : Piece → Piece → Prop where
  | word (text : String) (a b : Span) : Alike (.word ⟨text, a⟩) (.word ⟨text, b⟩)
  | typed (text : String) (a : Span) (hword : Text.IsWord text) :
      Alike (.word ⟨text, a⟩) (.typed (.string text))

theorem Piece.Alike.text_eq {x y : Piece} (h : Alike x y) : x.text = y.text := by
  cases h with
  | word text a b => rfl
  | typed text a hword => rfl

/-- A reading that makes no difference between alike pieces. -/
def Reading.IsEven : Reading → Prop
  | unread _ => True
  | one _ judge => ∀ x y, Piece.Alike x y → judge x = judge y
  | all judge => ∀ x y, Piece.Alike x y → judge [x] = judge [y]

namespace Slot

open Resolve

variable {x y : Piece}

theorem items_eq_of_alike (p : Param) (h : Piece.Alike x y) : items p [x] = items p [y] := by
  unfold items
  split
  · simp only [List.map_cons, List.map_nil, h.text_eq]
  · cases h with
    | word text a b => rfl
    | typed text a hword => simp [itemsOf, Text.words_of_isWord hword]

theorem judgeBool_eq_of_alike (h : Piece.Alike x y) : judgeBool x = judgeBool y := by
  unfold judgeBool
  cases h with
  | word text a b => dsimp only [Piece.text]
  | typed text a hword => dsimp only [Piece.text, OptionValue.text]

theorem integerOf_eq_of_alike (h : Piece.Alike x y) : integerOf x = integerOf y := by
  unfold integerOf
  cases h with
  | word text a b => dsimp only [Piece.text]
  | typed text a hword => dsimp only [Piece.text, OptionValue.text]

theorem doubleOf_eq_of_alike (h : Piece.Alike x y) : doubleOf x = doubleOf y := by
  unfold doubleOf
  cases h with
  | word text a b => dsimp only [Piece.text]
  | typed text a hword => dsimp only [Piece.text, OptionValue.text]

theorem decimalOf_eq_of_alike (h : Piece.Alike x y) : decimalOf x = decimalOf y := by
  unfold decimalOf
  cases h with
  | word text a b => dsimp only [Piece.text]
  | typed text a hword => dsimp only [Piece.text, OptionValue.text]

theorem isEven_stringReading (slot : Slot) : slot.stringReading.IsEven := by
  unfold stringReading
  split
  · exact fun x y h => congrArg (judgeLength slot.param) h.text_eq
  · split
    · exact fun x y h => by simp [judgeLine, h.text_eq]
    · exact fun x y h => congrArg (fun text => judgeLength slot.param (Text.trim text)) h.text_eq

theorem isEven_ownReading (slot : Slot) (own : Except Refusal Value) (self : Option Value)
    (judge : String → Except Refusal Value) : (slot.ownReading own self judge).IsEven := by
  unfold ownReading
  split
  · exact fun x y h => congrArg (fun text => judge (Text.trim text)) h.text_eq
  · trivial

/-- No standard resolver tells alike pieces apart. -/
theorem isEven_reading (slot : Slot) : slot.reading.IsEven := by
  cases htype : slot.param.type with simp only [reading, htype]
  | bool => exact fun x y h => judgeBool_eq_of_alike h
  | integer width =>
      exact fun x y h => by simp only [judgeInteger, integerOf_eq_of_alike h, h.text_eq]
  | float32 | float64 | number =>
      exact fun x y h => by simp only [judgeFloat, doubleOf_eq_of_alike h, h.text_eq]
  | decimal => exact fun x y h => by simp only [judgeDecimal, decimalOf_eq_of_alike h, h.text_eq]
  | string => exact slot.isEven_stringReading
  | strings =>
      exact fun x y h =>
        congrArg (fun items => Except.ok (Value.strings items)) (items_eq_of_alike slot.param h)
  | user => exact slot.isEven_ownReading _ _ _
  | member => exact slot.isEven_ownReading _ _ _
  | channel => exact slot.isEven_ownReading _ _ _
  | role => exact fun x y h => congrArg (fun text => judgeRole slot (Text.trim text)) h.text_eq
  | mentionable =>
      exact fun x y h => congrArg (fun text => judgeMentionable slot (Text.trim text)) h.text_eq
  | emoji => exact fun x y h => congrArg (fun text => judgeEmoji slot (Text.trim text)) h.text_eq
  | guild => trivial
  | anyEnum => trivial
  | named name =>
      unfold memberReading
      split
      · exact fun x y h => by simp only [judgeMember, h.text_eq]
      · trivial

end Slot

end ChatCommands
