import ChatCommands.Json.Basic
import ChatCommands.Number.Numeral
import ChatCommands.Text.Case
import ChatCommands.Text.UnseenTable

/-!
# Refused texts

What can be wrong with a text that should hold a JSON value, or a record written
as one, and the place in the text that shows it.
-/

namespace ChatCommands.Json

/-- The text in quotes, with backslashes before quotes and backslashes and in the
place of unseen characters. -/
def quoted (s : String) : String :=
  "\"" ++ String.join (s.toList.map shown) ++ "\""
where
  shown (c : Char) : String :=
    if c == '"' || c == '\\' then String.ofList ['\\', c]
    else if c == '\n' then "\\n"
    else if c == '\r' then "\\r"
    else if c == '\t' then "\\t"
    else if c.toNat = 0 then "\\0"
    else if Text.inRanges Text.unseenRanges c then
      "\\u\x7b" ++ String.ofList (Nat.toDigits 16 c.toNat) ++ "\x7d"
    else String.ofList [c]

/-- What a value is, as far as messages tell. -/
def found : Json → String
  | null => "null"
  | bool b => if b then "boolean `true`" else "boolean `false`"
  | integer n => "integer `" ++ Numeral.intText n ++ "`"
  | float x => "floating point `" ++ x.dataText ++ "`"
  | string s => "string " ++ quoted s
  | array _ => "sequence"
  | object _ => "map"

/-- What is wrong with a text. -/
inductive Fault where
  | endInValue
  | endInList
  | endInObject
  | endInString
  | expectedValue
  | expectedWord
  | expectedColon
  | expectedListEnd
  | expectedObjectEnd
  | trailingComma
  | trailingCharacters
  | keyNotString
  | invalidNumber
  | outOfRange
  | invalidEscape
  | controlCharacter
  | loneSurrogate
  | unfinishedEscape
  | tooDeep
  | wrongType (found expected : String)
  | wrongValue (found expected : String)
  | wrongLength (length : Nat) (expected : String)
  | unknownName (name : String) (known : List String)
  | missingField (name : String)
  | repeatedField (name : String)
  /-- A value that breaks a rule of its own. -/
  | broken (message : String)
deriving DecidableEq

/-- The wording of a fault. -/
def Fault.message : Fault → String
  | endInValue => "EOF while parsing a value"
  | endInList => "EOF while parsing a list"
  | endInObject => "EOF while parsing an object"
  | endInString => "EOF while parsing a string"
  | expectedValue => "expected value"
  | expectedWord => "expected ident"
  | expectedColon => "expected `:`"
  | expectedListEnd => "expected `,` or `]`"
  | expectedObjectEnd => "expected `,` or `\x7d`"
  | trailingComma => "trailing comma"
  | trailingCharacters => "trailing characters"
  | keyNotString => "key must be a string"
  | invalidNumber => "invalid number"
  | outOfRange => "number out of range"
  | invalidEscape => "invalid escape"
  | controlCharacter =>
    "control character (\\u0000-\\u001F) found while parsing a string"
  | loneSurrogate => "lone leading surrogate in hex escape"
  | unfinishedEscape => "unexpected end of hex escape"
  | tooDeep => "recursion limit exceeded"
  | wrongType found expected => "invalid type: " ++ found ++ ", expected " ++ expected
  | wrongValue found expected => "invalid value: " ++ found ++ ", expected " ++ expected
  | wrongLength length expected =>
    "invalid length " ++ Numeral.text length ++ ", expected " ++ expected
  | unknownName name known =>
    "unknown variant `" ++ name ++ "`, expected one of " ++
      String.intercalate ", " (known.map fun k => "`" ++ k ++ "`")
  | missingField name => "missing field `" ++ name ++ "`"
  | repeatedField name => "duplicate field `" ++ name ++ "`"
  | broken message => message

/-- A place in a text: the number of the line, and how many bytes of the line come
before it. -/
structure Place where
  line : Nat := 1
  column : Nat := 0
deriving DecidableEq

namespace Place

/-- The place behind a character. -/
def past (p : Place) (c : Char) : Place :=
  if c == '\n' then ⟨p.line + 1, 0⟩ else ⟨p.line, p.column + c.utf8Size⟩

/-- The place behind a number of bytes of a text, which may end within a
character. -/
def after (p : Place) (bytes : Nat) : List Char → Place
  | [] => p
  | c :: rest =>
    if bytes = 0 then p
    else if c.utf8Size ≤ bytes then (p.past c).after (bytes - c.utf8Size) rest
    else ⟨p.line, p.column + bytes⟩

end Place

/-- A fault and its place, once that is known. -/
structure Refusal where
  fault : Fault
  place : Option Place := none
deriving DecidableEq

/-- The wording of a refusal. -/
def Refusal.message (r : Refusal) : String :=
  match r.place with
  | some p =>
    r.fault.message ++ " at line " ++ Numeral.text p.line ++ " column " ++ Numeral.text p.column
  | none => r.fault.message

end ChatCommands.Json
