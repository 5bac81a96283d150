import ChatCommands.Resolve.Resolver
import ChatCommands.Text.Word

/-!
# Texts, truth values and members of enumerations from input

A string takes one word, unless it is the last parameter: then it takes the rest
of the line.  A list of strings always takes the rest.
-/

namespace ChatCommands.Resolve

/-- The words that mean yes. -/
def trueWords : List String := ["true", "yes", "on", "y", "1"]

/-- The words that mean no. -/
def falseWords : List String := ["false", "no", "off", "n", "0"]

/-- Judges a piece of input for a truth value. -/
def judgeBool (piece : Piece) : Except Refusal Value :=
  match piece with
  | .typed (.boolean b) => .ok (.bool b)
  | _ =>
    let word := Text.asciiLower (Text.trim piece.text)
    if trueWords.contains word then .ok (.bool true)
    else if falseWords.contains word then .ok (.bool false)
    else .error (.argument (.notAChoice piece.text ["true", "false"]))

/-- Takes one piece and judges it as a truth value. -/
def bool (slot : Slot) (supply : Supply) : Except CommandError Value × Supply :=
  slot.withPiece supply .absent judgeBool

/-- Judges the number of characters of a text. -/
def judgeLength (p : Param) (s : String) : Except Refusal Value := do
  if let some least := p.minLength then
    if s.length < least then throw (.argument (.tooShort least s.length))
  if let some greatest := p.maxLength then
    if greatest < s.length then throw (.argument (.tooLong greatest s.length))
  return .string s

/-- Whether a string parameter takes the rest of the line. -/
def takesLine (slot : Slot) : Bool :=
  slot.isLast && !slot.param.hasFlag "single" && slot.param.choices.isEmpty

/-- Judges the pieces of the rest of a line. -/
def judgeLine (p : Param) (pieces : List Piece) : Except Refusal Value :=
  if pieces.isEmpty then .ok .absent
  else judgeLength p (Text.join " " (pieces.map fun piece => Text.trim piece.text))

/-- A string: flagged `raw` one piece as it stands, else the rest of the line or
one trimmed piece. -/
def string (slot : Slot) (supply : Supply) : Except CommandError Value × Supply :=
  if slot.param.hasFlag "raw" then
    slot.withPiece supply .absent fun piece => judgeLength slot.param piece.text
  else if takesLine slot then slot.withRest supply (judgeLine slot.param)
  else
    slot.withPiece supply .absent fun piece =>
      judgeLength slot.param (Text.trim piece.text)

/-- The text at which a list is cut. -/
def delimiter (p : Param) : String :=
  match p.flag "split" with
  | some s => if s = "" then "," else s
  | none => ","

/-- The items that a piece stands for when a list is not cut. -/
def itemsOf : Piece → List String
  | .word token => [token.text]
  | .typed (.string s) => Text.words s
  | .typed value => [value.text]

/-- The items of a list of strings. -/
def items (p : Param) (pieces : List Piece) : List String :=
  if p.hasFlag "split" then
    let joined := Text.join " " (pieces.map Piece.text)
    ((Text.cutAt (delimiter p).toList joined.toList).map fun cs =>
      String.ofList (Text.trimChars cs)).filter (· != "")
  else pieces.flatMap itemsOf

/-- Takes all pieces as a list of strings. -/
def strings (slot : Slot) (supply : Supply) : Except CommandError Value × Supply :=
  slot.withRest supply fun pieces => .ok (.strings (items slot.param pieces))

/-- Whether a character separates the words of a member's name. -/
def isJoint (c : Char) : Bool :=
  c == '_' || c == '-' || c == ' '

/-- The form of a member's name in which case and separators make no
difference. -/
def normalForm (s : String) : String :=
  String.ofList ((s.toList.filter fun c => !isJoint c).flatMap Text.lowerForm)

/-- Judges a piece of input for a member of an enumeration. -/
def judgeMember (enumeration : Enumeration) (piece : Piece) : Except Refusal Value :=
  match enumeration.members.find? fun m => normalForm m == normalForm piece.text with
  | some m => .ok (.enumMember enumeration.name m)
  | none => .error (.argument (.notAChoice piece.text enumeration.members))

/-- Takes one piece and judges it as a member of the enumeration that the type
of the parameter names. -/
def enumeration (slot : Slot) (supply : Supply) : Except CommandError Value × Supply :=
  match slot.param.type with
  | .named name =>
    match slot.enums.find? name with
    | some found => slot.withPiece supply .absent (judgeMember found)
    | none => slot.settle supply (.error (.internal (.unregisteredEnumeration name)))
  | _ => slot.settle supply (.error (.internal (.notAnEnumeration slot.param.name)))

end ChatCommands.Resolve
