import ChatCommands.Json.Basic

/-!
# Writing JSON

The compact form, without any blank, and the indented form with one item or
field a line.
-/

namespace ChatCommands.Json

/-- A hexadecimal digit in lowercase. -/
def hexDigit (n : Nat) : Char :=
  if n < 10 then Char.ofNat ('0'.toNat + n) else Char.ofNat ('a'.toNat + (n - 10))

/-- A character inside of quotes. -/
def escape (c : Char) : List Char :=
  if c == '"' then ['\\', '"']
  else if c == '\\' then ['\\', '\\']
  else if c == '\n' then ['\\', 'n']
  else if c == '\r' then ['\\', 'r']
  else if c == '\t' then ['\\', 't']
  else if c.toNat == 8 then ['\\', 'b']
  else if c.toNat == 12 then ['\\', 'f']
  else if c.toNat < 32 then ['\\', 'u', '0', '0', hexDigit (c.toNat / 16), hexDigit (c.toNat % 16)]
  else [c]

/-- A text in quotes. -/
def quote (s : String) : String :=
  String.ofList ('"' :: (s.toList.flatMap escape ++ ['"']))

/-- A value that is neither an array nor an object. -/
def scalarText : Json → String
  | bool true => "true"
  | bool false => "false"
  | integer n => Numeral.intText n
  | float x => x.dataText
  | string s => quote s
  | _ => "null"

/-- The two opening and the two closing brackets. -/
def openArray : String := "["

@[inherit_doc openArray]
def closeArray : String := "]"

@[inherit_doc openArray]
def openObject : String := "\x7b"

@[inherit_doc openArray]
def closeObject : String := "\x7d"

mutual

/-- The compact form. -/
def compact : Json → String
  | array items => openArray ++ compactItems items ++ closeArray
  | object fields => openObject ++ compactFields fields ++ closeObject
  | scalar => scalarText scalar

/-- Items with commas between them. -/
def compactItems : List Json → String
  | [] => ""
  | [item] => compact item
  | item :: rest => compact item ++ "," ++ compactItems rest

/-- Fields with commas between them. -/
def compactFields : List (String × Json) → String
  | [] => ""
  | [(key, value)] => quote key ++ ":" ++ compact value
  | (key, value) :: rest => quote key ++ ":" ++ compact value ++ "," ++ compactFields rest

end

/-- A new line with two spaces for each level. -/
def newline (level : Nat) : String :=
  String.ofList ('\n' :: List.replicate (2 * level) ' ')

mutual

/-- The indented form at a level of nesting. -/
def indented (level : Nat) : Json → String
  | array [] => openArray ++ closeArray
  | array (item :: rest) =>
    openArray ++ newline (level + 1) ++ indented (level + 1) item ++
      indentedItems (level + 1) rest ++ newline level ++ closeArray
  | object [] => openObject ++ closeObject
  | object ((key, value) :: rest) =>
    openObject ++ newline (level + 1) ++ quote key ++ ": " ++ indented (level + 1) value ++
      indentedFields (level + 1) rest ++ newline level ++ closeObject
  | scalar => scalarText scalar

/-- The items after the first, each behind a comma on a new line. -/
def indentedItems (level : Nat) : List Json → String
  | [] => ""
  | item :: rest => "," ++ newline level ++ indented level item ++ indentedItems level rest

/-- The fields after the first, each behind a comma on a new line. -/
def indentedFields (level : Nat) : List (String × Json) → String
  | [] => ""
  | (key, value) :: rest =>
    "," ++ newline level ++ quote key ++ ": " ++ indented level value ++
      indentedFields level rest

end

/-- The indented form. -/
def pretty (value : Json) : String :=
  indented 0 value

end ChatCommands.Json
