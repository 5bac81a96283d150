import ChatCommands.Resolve.Standard
import ChatCommands.Proofs.Outcome
import ChatCommands.Proofs.Resolve.Supply

/-!
# How the standard resolvers read

Every standard resolver does one of three things with the input.  It leaves the
input alone, it takes one piece, or it takes all that is left.  What it makes of
the pieces is a judgement that no longer sees the input, so that properties of
resolution are properties of judgements.
-/

namespace ChatCommands

/-- What a resolver does with the input of its parameter. -/
inductive Reading where
  | unread (result : Except Refusal Value)
  | one (missing : Value) (judge : Piece → Except Refusal Value)
  | all (judge : List Piece → Except Refusal Value)

/-- Carries a reading out. -/
def Reading.run (slot : Slot) (supply : Supply) :
    Reading → Except CommandError Value × Supply
  | unread result => slot.settle supply result
  | one missing judge => slot.withPiece supply missing judge
  | all judge => slot.withRest supply judge

theorem Reading.keeps_run {slot : Slot} {I : Input → Prop} (hI : Supply.Keeps slot.param.name I)
    (reading : Reading) {s : Supply} (h : I s.input) : I (reading.run slot s).2.input := by
  cases reading with
  | unread result => exact h
  | one missing judge =>
      have hpop := hI.pop h
      simp only [run, Slot.withPiece]
      split
      next rest heq => rwa [heq] at hpop
      next piece rest heq => rwa [heq] at hpop
  | all judge => exact hI.popRest h

namespace Slot

open Resolve

/-- The reading of a string. -/
def stringReading (slot : Slot) : Reading :=
  if slot.param.hasFlag "raw" then .one .absent fun piece => judgeLength slot.param piece.text
  else if takesLine slot then .all (judgeLine slot.param)
  else .one .absent fun piece => judgeLength slot.param (Text.trim piece.text)

/-- The reading of an entity that may be the issuer's own: its value without the
flag `other`, or without input, and the judgement of a trimmed text. -/
def ownReading (slot : Slot) (own : Except Refusal Value) (self : Option Value)
    (judge : String → Except Refusal Value) : Reading :=
  if slot.param.hasFlag "other" then
    .one (absentOr slot.param self) fun piece => judge (Text.trim piece.text)
  else .unread own

/-- The result for something that the invocation lacks. -/
def lacking (slot : Slot) (entity : String) : Except Refusal Value :=
  if slot.param.optional then .ok .absent else .error (.argument (.outOfScope entity))

/-- The reading of a member of the enumeration that a type names. -/
def memberReading (slot : Slot) (name : String) : Reading :=
  match slot.enums.find? name with
  | some found => .one .absent (judgeMember found)
  | none => .unread (.error (.internal (.unregisteredEnumeration name)))

/-- The reading of the standard resolver of each type. -/
def reading (slot : Slot) : Reading :=
  match slot.param.type with
  | .bool => .one .absent judgeBool
  | .integer _ => .one .absent (judgeInteger slot.param)
  | .float32 | .float64 | .number => .one .absent (judgeFloat slot.param)
  | .decimal => .one .absent (judgeDecimal slot.param)
  | .string => slot.stringReading
  | .strings => .all fun pieces => .ok (.strings (items slot.param pieces))
  | .user =>
    slot.ownReading (.ok (.user slot.invocation.issuer))
      (some (.user slot.invocation.issuer)) (judgeUser slot)
  | .member =>
    slot.ownReading
      (match slot.invocation.member with
        | some m => .ok (.member m)
        | none => slot.lacking "member")
      (slot.invocation.member.map .member) (judgeMemberOf slot)
  | .channel =>
    slot.ownReading (.ok (.channel slot.invocation.channel))
      (some (.channel slot.invocation.channel)) (judgeChannel slot)
  | .role => .one .absent fun piece => judgeRole slot (Text.trim piece.text)
  | .mentionable => .one .absent fun piece => judgeMentionable slot (Text.trim piece.text)
  | .emoji => .one .absent fun piece => judgeEmoji slot (Text.trim piece.text)
  | .guild =>
    .unread (match slot.invocation.guild with
      | some g => .ok (.guild g)
      | none => slot.lacking "guild")
  | .named name => slot.memberReading name
  | .anyEnum => .unread (.error (.internal (.notAnEnumeration slot.param.name)))

theorem run_stringReading (slot : Slot) (supply : Supply) :
    slot.stringReading.run slot supply = string slot supply := by
  unfold stringReading string
  split
  · rfl
  · split
    · rfl
    · rfl

theorem run_ownReading (slot : Slot) (supply : Supply) (own : Except Refusal Value)
    (self : Option Value) (judge : String → Except Refusal Value) :
    (slot.ownReading own self judge).run slot supply =
      if slot.param.hasFlag "other" then
        slot.withPiece supply (absentOr slot.param self) fun piece => judge (Text.trim piece.text)
      else slot.settle supply own := by
  unfold ownReading
  split
  · rfl
  · rfl

theorem run_memberReading {slot : Slot} {name : String} (h : slot.param.type = .named name)
    (supply : Supply) :
    (slot.memberReading name).run slot supply = enumeration slot supply := by
  simp only [memberReading, enumeration, h]
  cases slot.enums.find? name with
  | none => rfl
  | some found => rfl

end Slot

/-! ## Taking all that is left -/

theorem ParamType.isVariadic_iff {type : ParamType} : type.isVariadic = true ↔ type = .strings := by
  cases type <;> simp [isVariadic]

/-- Whether a parameter takes all words that are left. -/
def Param.takesAll (p : Param) (isLast : Bool) : Bool :=
  p.type.isVariadic ||
    (p.type == .string && isLast && !p.hasFlag "single" && !p.hasFlag "raw" && p.choices.isEmpty)

theorem Slot.exists_stringReading_eq_all_iff (slot : Slot) :
    (∃ judge, slot.stringReading = .all judge) ↔
      (slot.isLast && !slot.param.hasFlag "single" && !slot.param.hasFlag "raw" &&
        slot.param.choices.isEmpty) = true := by
  unfold stringReading Resolve.takesLine
  cases slot.param.hasFlag "raw" with
  | true => simp
  | false =>
      simp only [Bool.false_eq_true, if_false, Bool.not_false, Bool.and_true]
      split
      next hline => exact ⟨fun _ => hline, fun _ => ⟨_, rfl⟩⟩
      next hword =>
        refine ⟨?_, fun hline => absurd hline hword⟩
        rintro ⟨judge, hall⟩
        cases hall

theorem Slot.exists_reading_eq_all_iff (slot : Slot) :
    (∃ judge, slot.reading = .all judge) ↔ slot.param.takesAll slot.isLast = true := by
  unfold Param.takesAll
  cases htype : slot.param.type with simp only [reading, htype]
  | string => exact slot.exists_stringReading_eq_all_iff
  | strings => simp [ParamType.isVariadic]
  | user | member | channel =>
      unfold ownReading
      split <;> simp [ParamType.isVariadic]
  | named name =>
      unfold memberReading
      split <;> simp [ParamType.isVariadic]
  | _ => simp [ParamType.isVariadic]

/-! ## Tables with the standard resolvers -/

namespace ResolverTable

/-- A table that has the standard resolvers and any enumerations. -/
def IsStandard (t : ResolverTable) : Prop :=
  t.entries = Resolve.standardEntries

theorem isStandard_withEnums (enums : List (String × List String)) :
    (withEnums enums).IsStandard := by
  have hfold : ∀ t : ResolverTable, t.IsStandard →
      (enums.foldl (fun t enum => t.declareEnum enum.1 enum.2) t).IsStandard := by
    induction enums with
    | nil => exact fun t ht => ht
    | cons enum rest ih => exact fun t ht => ih (t.declareEnum enum.1 enum.2) ht
  exact hfold standard rfl

/-- The standard resolver of a type. -/
def standard? (type : ParamType) : Option Resolver :=
  open Resolve in
  match type with
  | .integer _ => some (fromInput integer)
  | .float32 | .float64 | .number => some (fromInput float)
  | .decimal => some (fromInput decimal)
  | .string => some (fromInput string)
  | .strings => some (fromInput strings)
  | .anyEnum => some (fromInput enumeration)
  | .bool => some (fromInput bool)
  | .guild => some (orAbsent .issuer guild)
  | .user => some (orAbsent .issuerUnlessOther user)
  | .member => some (orAbsent .issuerUnlessOther member)
  | .channel => some (orAbsent .issuerUnlessOther channel)
  | .role => some (orAbsent .input role)
  | .mentionable => some (orAbsent .input mentionable)
  | .emoji => some (orAbsent .input emoji)
  | .named _ => none

namespace IsStandard

variable {t : ResolverTable} {r : Resolver}

theorem own?_eq (ht : t.IsStandard) (type : ParamType) : t.own? type = standard? type := by
  rw [own?, ht]
  cases type with
  | integer width => cases width <;> rfl
  | named name => rfl
  | _ => rfl

theorem find?_of_standard? (ht : t.IsStandard) {type : ParamType} (h : standard? type = some r) :
    t.find? type = some r := by
  simp [find?, ht.own?_eq, h]

/-- A type has its standard resolver, or it names an enumeration. -/
theorem eq_of_find? (ht : t.IsStandard) {type : ParamType} (h : t.find? type = some r) :
    standard? type = some r ∨
      ∃ name, type = .named name ∧ (t.enums.find? name).isSome = true ∧
        r = Resolve.fromInput Resolve.enumeration := by
  unfold find? at h
  rw [ht.own?_eq] at h
  cases type with
  | named name =>
      by_cases hdeclared : (t.enums.find? name).isSome = true
      · have hr : some (Resolve.fromInput Resolve.enumeration) = some r := by
          simpa [standard?, hdeclared, ht.own?_eq] using h
        exact .inr ⟨name, rfl, hdeclared, (Option.some.inj hr).symm⟩
      · simp [standard?, hdeclared] at h
  | _ => exact .inl (by simpa using h)

/-- The resolver of a parameter reads as the type of the parameter tells. -/
theorem run_eq (ht : t.IsStandard) (slot : Slot)
    (h : t.find? slot.param.type = some r) (supply : Supply) :
    r.run slot supply = slot.reading.run slot supply := by
  rcases ht.eq_of_find? h with hr | ⟨name, hname, -, rfl⟩
  · cases htype : slot.param.type <;> rw [htype] at hr <;> cases hr <;>
      simp only [Slot.reading, htype, Slot.run_ownReading, Slot.run_stringReading]
    case inl.member.refl =>
      cases hmember : slot.invocation.member with
      | none => simp [Resolve.orAbsent, Resolve.member, hmember, Slot.lacking]
      | some m => simp [Resolve.orAbsent, Resolve.member, hmember, Slot.settle]
    case inl.guild.refl =>
      cases hguild : slot.invocation.guild with
      | none => simp [Resolve.orAbsent, Resolve.guild, hguild, Slot.lacking, Reading.run]
      | some g => simp [Resolve.orAbsent, Resolve.guild, hguild, Reading.run, Slot.settle]
    case inl.anyEnum.refl =>
      simp only [Reading.run, Resolve.fromInput, Resolve.enumeration, htype]
    all_goals rfl
  · simp only [Slot.reading, hname, Slot.run_memberReading hname]
    rfl

/-- Without input from the user, the input is not read. -/
theorem reading_of_isIssuerOnly (ht : t.IsStandard) (slot : Slot)
    (h : t.find? slot.param.type = some r) (hissuer : r.isIssuerOnly slot.param = true) :
    ∃ result, slot.reading = .unread result := by
  rcases ht.eq_of_find? h with hr | ⟨name, hname, -, rfl⟩
  · cases htype : slot.param.type <;> rw [htype] at hr <;> cases hr <;>
      simp [Resolver.isIssuerOnly, Resolve.fromInput, Resolve.orAbsent] at hissuer <;>
      simp [Slot.reading, htype, Slot.ownReading, hissuer]
  · simp [Resolver.isIssuerOnly, Resolve.fromInput] at hissuer

/-- A resolver that reads is not one of the issuer. -/
theorem isIssuerOnly_of_reading (ht : t.IsStandard) (slot : Slot)
    (h : t.find? slot.param.type = some r) (hreads : ∀ result, slot.reading ≠ .unread result) :
    r.isIssuerOnly slot.param = false := by
  rw [Bool.eq_false_iff]
  intro hissuer
  obtain ⟨result, hunread⟩ := ht.reading_of_isIssuerOnly slot h hissuer
  exact hreads result hunread

/-- A parameter that takes input does not get a value without reading. -/
theorem reading_ne_unread (ht : t.IsStandard) (slot : Slot)
    (h : t.find? slot.param.type = some r) (henums : slot.enums = t.enums)
    (htakes : r.isIssuerOnly slot.param = false) (value : Value) :
    slot.reading ≠ .unread (.ok value) := by
  rcases ht.eq_of_find? h with hr | ⟨name, hname, hdeclared, rfl⟩
  · cases htype : slot.param.type <;> rw [htype] at hr <;> cases hr <;>
      simp [Resolver.isIssuerOnly, Resolve.fromInput, Resolve.orAbsent] at htakes <;>
      simp [Slot.reading, htype, Slot.ownReading, htakes]
    unfold Slot.stringReading
    split
    · simp
    · split <;> simp
  · obtain ⟨found, hfound⟩ := Option.isSome_iff_exists.mp hdeclared
    simp [Slot.reading, hname, Slot.memberReading, henums, hfound]

end IsStandard

end ResolverTable

end ChatCommands
