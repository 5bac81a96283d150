import ChatCommands.Proofs.Resolve.Reading

/-!
# What the standard resolvers refuse

A standard resolver blames its input, and never the library: its bounds keep an
integer within its width, and an enumeration that was found has its members.  The
only exception is the type of all enumerations, of which no input is a member.
-/

namespace ChatCommands

open Resolve

/-- A result that, if it is a refusal, blames the argument. -/
def Plain {α : Type} (result : Except Refusal α) : Prop :=
  ∀ fault, result ≠ .error (.internal fault)

section Plain

variable {α β : Type}

theorem plain_ok (a : α) : Plain (.ok a : Except Refusal α) := by
  intro fault h
  cases h

theorem plain_argument (fault : ArgumentFault) :
    Plain (.error (.argument fault) : Except Refusal α) := by
  intro internal h
  cases h

theorem Plain.bind {x : Except Refusal α} {f : α → Except Refusal β} (hx : Plain x)
    (hf : ∀ a, x = .ok a → Plain (f a)) : Plain (x >>= f) := by
  cases x with
  | error refusal =>
      cases refusal with
      | argument fault => exact plain_argument fault
      | internal fault => exact absurd rfl (hx fault)
  | ok a => exact hf a rfl

/-- A check that refuses the argument, and what comes after it. -/
theorem Plain.check {c : Prop} [Decidable c] {fault : ArgumentFault}
    {rest : Unit → Except Refusal α} (h : ¬ c → Plain (rest ())) :
    Plain (if c then throw (.argument fault) >>= rest else rest ()) := by
  by_cases hc : c
  · rw [if_pos hc]
    exact plain_argument fault
  · rw [if_neg hc]
    exact h hc

end Plain

namespace Resolve

variable {slot : Slot} {p : Param}

/-! ## Judgements -/

theorem plain_judgeBool (piece : Piece) : Plain (judgeBool piece) := by
  unfold judgeBool
  split
  next b => exact plain_ok _
  next =>
    simp only
    split
    · exact plain_ok _
    · split
      · exact plain_ok _
      · exact plain_argument _

theorem plain_integerOfText (s : String) : Plain (integerOfText s) := by
  unfold integerOfText
  split
  · exact plain_ok _
  · exact plain_argument _

theorem plain_integerOf (piece : Piece) : Plain (integerOf piece) := by
  unfold integerOf
  split
  · exact plain_ok _
  · split
    · exact plain_ok _
    · exact plain_integerOfText _
  · exact plain_integerOfText _

theorem low_le_leastInteger (p : Param) : (widthOf p.type).low ≤ leastInteger p := by
  unfold leastInteger
  split
  · exact Int.le_max_right _ _
  · exact Int.le_refl _

theorem greatestInteger_le_high (p : Param) : greatestInteger p ≤ (widthOf p.type).high := by
  unfold greatestInteger
  split
  · exact Int.min_le_right _ _
  · exact Int.le_refl _

/-- The bounds only tighten the range of the type, and so no integer escapes it. -/
theorem plain_judgeInteger (p : Param) (piece : Piece) : Plain (judgeInteger p piece) := by
  refine (plain_integerOf piece).bind ?_
  intro n _
  refine Plain.check fun hleast => ?_
  refine Plain.check fun hgreatest => ?_
  have hfits : (widthOf p.type).low ≤ n ∧ n ≤ (widthOf p.type).high :=
    ⟨Int.le_trans (low_le_leastInteger p) (Int.not_lt.mp hleast),
      Int.le_trans (Int.not_lt.mp hgreatest) (greatestInteger_le_high p)⟩
  rw [SizedInt.of?, dif_pos hfits]
  exact plain_ok _

theorem plain_judgeFloat (p : Param) (piece : Piece) : Plain (judgeFloat p piece) := by
  unfold judgeFloat
  split
  next =>
    refine Plain.check fun _ => ?_
    refine Plain.check fun _ => ?_
    split
    · exact plain_ok _
    · exact plain_ok _
  next => exact plain_argument _

theorem plain_judgeDecimal (p : Param) (piece : Piece) : Plain (judgeDecimal p piece) := by
  unfold judgeDecimal
  split
  next => exact plain_argument _
  next d hd =>
    cases p.minBound.bind (·.toDecimal?) <;> cases p.maxBound.bind (·.toDecimal?)
    · exact plain_ok _
    · exact Plain.check fun _ => plain_ok _
    · exact Plain.check fun _ => plain_ok _
    · exact Plain.check fun _ => Plain.check fun _ => plain_ok _

theorem plain_judgeLength (p : Param) (s : String) : Plain (judgeLength p s) := by
  unfold judgeLength
  cases p.minLength <;> cases p.maxLength
  · exact plain_ok _
  · exact Plain.check fun _ => plain_ok _
  · exact Plain.check fun _ => plain_ok _
  · exact Plain.check fun _ => Plain.check fun _ => plain_ok _

theorem plain_judgeLine (p : Param) (pieces : List Piece) : Plain (judgeLine p pieces) := by
  unfold judgeLine
  split
  · exact plain_ok _
  · exact plain_judgeLength _ _

theorem plain_judgeMember (enumeration : Enumeration) (piece : Piece) :
    Plain (judgeMember enumeration piece) := by
  unfold judgeMember
  split
  · exact plain_ok _
  · exact plain_argument _

theorem plain_toValue {α : Type} (found : Search α) (p : Param) (entity input : String)
    (value : α → Value) : Plain (found.toValue p entity input value) := by
  cases found with
  | found e => exact plain_ok _
  | ambiguous candidates => exact plain_argument _
  | missing =>
      unfold Search.toValue
      simp only
      split
      · exact plain_ok _
      · exact plain_argument _

theorem plain_searchScope (slot : Slot) (entity : String) : Plain (searchScope slot entity) := by
  unfold searchScope
  split
  · exact plain_ok _
  · split
    · exact plain_ok _
    · exact plain_argument _

theorem plain_judgeMemberOf (slot : Slot) (text : String) : Plain (judgeMemberOf slot text) := by
  unfold judgeMemberOf
  split
  · exact plain_argument _
  · exact plain_toValue _ _ _ _ _

/-- The judgements that search in a scope. -/
theorem plain_scoped {α : Type} {entity input : String} {value : α → Value}
    {find : Scope → Search α} :
    Plain (searchScope slot entity >>= fun scope =>
      (find scope).toValue slot.param entity input value) :=
  (plain_searchScope slot entity).bind fun _ _ => plain_toValue _ _ _ _ _

end Resolve

/-! ## Readings -/

/-- A reading that blames no more than the argument, whatever it reads. -/
def Reading.IsPlain : Reading → Prop
  | unread result => Plain result
  | one _ judge => ∀ piece, Plain (judge piece)
  | all judge => ∀ pieces, Plain (judge pieces)

namespace Slot

variable {slot : Slot}

theorem plain_lacking (slot : Slot) (entity : String) : Plain (slot.lacking entity) := by
  unfold lacking
  split
  · exact plain_ok _
  · exact plain_argument _

theorem isPlain_ownReading {own : Except Refusal Value} {self : Option Value}
    {judge : String → Except Refusal Value} (hown : Plain own)
    (hjudge : ∀ text, Plain (judge text)) : (slot.ownReading own self judge).IsPlain := by
  unfold ownReading
  split
  · exact fun piece => hjudge (Text.trim piece.text)
  · exact hown

theorem isPlain_stringReading (slot : Slot) : slot.stringReading.IsPlain := by
  unfold stringReading
  split
  · exact fun piece => plain_judgeLength _ _
  · split
    · exact plain_judgeLine _
    · exact fun piece => plain_judgeLength _ _

theorem isPlain_memberReading {name : String} (h : (slot.enums.find? name).isSome = true) :
    (slot.memberReading name).IsPlain := by
  obtain ⟨found, hfound⟩ := Option.isSome_iff_exists.mp h
  rw [memberReading, hfound]
  exact plain_judgeMember found

/-- The reading of a type blames no more than the argument, unless it is the type of
all enumerations or names one that is not declared. -/
theorem isPlain_reading (htype : slot.param.type ≠ .anyEnum)
    (hnamed : ∀ name, slot.param.type = .named name → (slot.enums.find? name).isSome = true) :
    slot.reading.IsPlain := by
  unfold reading
  split
  case h_1 => exact plain_judgeBool
  case h_2 => exact plain_judgeInteger _
  case h_3 => exact plain_judgeFloat _
  case h_4 => exact plain_judgeFloat _
  case h_5 => exact plain_judgeFloat _
  case h_6 => exact plain_judgeDecimal _
  case h_7 => exact slot.isPlain_stringReading
  case h_8 => exact fun pieces => plain_ok _
  case h_9 => exact isPlain_ownReading (plain_ok _) fun text => plain_toValue _ _ _ _ _
  case h_10 =>
    refine isPlain_ownReading ?_ (plain_judgeMemberOf slot)
    split
    · exact plain_ok _
    · exact slot.plain_lacking _
  case h_11 => exact isPlain_ownReading (plain_ok _) fun text => plain_scoped
  case h_12 => exact fun piece => plain_scoped
  case h_13 => exact fun piece => plain_scoped
  case h_14 => exact fun piece => plain_scoped
  case h_15 =>
    split
    · exact plain_ok _
    · exact slot.plain_lacking _
  case h_16 name hname => exact isPlain_memberReading (hnamed name hname)
  case h_17 hany => exact absurd hany htype

end Slot

/-! ## Errors -/

/-- An error for which the library itself is to blame. -/
def CommandError.IsInternal (e : CommandError) : Prop :=
  ∃ fault, e.cause = .internal fault

theorem Supply.not_isInternal_refuse (s : Supply) (parameter : String) (fault : ArgumentFault) :
    ¬ (s.refuse parameter fault).IsInternal := by
  rintro ⟨internal, h⟩
  rw [s.cause_refuse] at h
  cases h

theorem Slot.not_isInternal_settle {slot : Slot} {s : Supply} {result : Except Refusal Value}
    (hplain : Plain result) {e : CommandError} (h : (slot.settle s result).1 = .error e) :
    ¬ e.IsInternal := by
  cases result with
  | ok v => cases h
  | error refusal =>
      cases refusal with
      | argument fault =>
          rw [← Except.error.inj h]
          exact s.not_isInternal_refuse _ _
      | internal fault => exact absurd rfl (hplain fault)

theorem Reading.IsPlain.not_isInternal {reading : Reading} (hplain : reading.IsPlain) {slot : Slot}
    {s : Supply} {e : CommandError} (h : (reading.run slot s).1 = .error e) : ¬ e.IsInternal := by
  cases reading with
  | unread result => exact Slot.not_isInternal_settle hplain h
  | one missing judge =>
      simp only [run, Slot.withPiece] at h
      split at h
      next => cases h
      next piece rest hpop => exact Slot.not_isInternal_settle (hplain piece) h
  | all judge => exact Slot.not_isInternal_settle (hplain _) h

end ChatCommands
