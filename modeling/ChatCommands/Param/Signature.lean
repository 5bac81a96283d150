import ChatCommands.Param.Basic

/-!
# Signatures

Parameters in the notation of usage lines: `<name:type>` is required and
`[name:type]` optional, `=value` gives a default, and `...` makes a parameter
take all words that are left.  Spaces and tabs may stand between any two parts.
-/

namespace ChatCommands.Signature

/-- The blanks that may stand between two parts. -/
def isGap (c : Char) : Bool :=
  c == ' ' || c == '\t'

/-- Skips blanks between two parts. -/
def skip (cs : List Char) : List Char :=
  cs.dropWhile isGap

/-- The characters of a name. -/
def isNameChar (c : Char) : Bool :=
  c.isAlphanum || c == '_' || c == '-'

/-- The characters of a type behind its first letter. -/
def isTypeChar (c : Char) : Bool :=
  c.isAlphanum || c == '_'

/-- A name of at least one character. -/
def readName? (cs : List Char) : Option (String × List Char) :=
  let (name, rest) := cs.span isNameChar
  if name.isEmpty then none else some (String.ofList name, rest)

/-- A type behind a colon. -/
def readType? (cs : List Char) : Option (String × List Char) :=
  match cs with
  | ':' :: rest =>
    match skip rest with
    | c :: rest =>
      if c.isAlpha then
        let (more, rest) := rest.span isTypeChar
        some (String.ofList (c :: more), rest)
      else none
    | [] => none
  | _ => none

/-- The characters up to a closing bracket or three dots. -/
def spanDefault : List Char → List Char × List Char
  | [] => ([], [])
  | '.' :: '.' :: '.' :: rest => ([], '.' :: '.' :: '.' :: rest)
  | c :: rest =>
    if c == ']' || c == '>' then ([], c :: rest)
    else
      let (value, rest) := spanDefault rest
      (c :: value, rest)

/-- A default behind an equals sign. -/
def readDefault? (cs : List Char) : Option (String × List Char) :=
  match cs with
  | '=' :: rest =>
    let (value, rest) := spanDefault (skip rest)
    if value.isEmpty then none else some (Text.trim (String.ofList value), rest)
  | _ => none

/-- Three dots. -/
def readDots (cs : List Char) : Bool × List Char :=
  match cs with
  | '.' :: '.' :: '.' :: rest => (true, rest)
  | _ => (false, cs)

/-- An optional part: nothing is read when it is not there. -/
def optionally {α : Type} (read? : List Char → Option (α × List Char)) (cs : List Char) :
    Option α × List Char :=
  match read? cs with
  | some (value, rest) => (some value, rest)
  | none => (none, cs)

/-- What a parameter of a signature says. -/
structure Item where
  optional : Bool
  name : String
  type : Option String
  default : Option String
  variadic : Bool
deriving DecidableEq

/-- A parameter behind its opening bracket, up to and with the closing one. -/
def readItem? (optional : Bool) (cs : List Char) : Option (Item × List Char) := do
  let (name, rest) ← readName? (skip cs)
  let (type, rest) := optionally readType? (skip rest)
  let (default, rest) := optionally readDefault? (skip rest)
  let (variadic, rest) := readDots (skip rest)
  match skip rest with
  | c :: rest =>
    if c == (if optional then ']' else '>') then
      return ({ optional, name, type, default, variadic }, rest)
    else none
  | [] => none

/-- Parameters up to the end of the text.  Each takes at least its brackets, so
that the number of characters bounds how many there are. -/
def readItems? : Nat → List Char → Option (List Item)
  | 0, _ => none
  | fuel + 1, cs =>
    match skip cs with
    | [] => some []
    | '<' :: rest => do
      let (item, rest) ← readItem? false rest
      return item :: (← readItems? fuel rest)
    | '[' :: rest => do
      let (item, rest) ← readItem? true rest
      return item :: (← readItems? fuel rest)
    | _ => none

/-- The declared type; three dots make a string a list of strings and go with no
other type. -/
def Item.type? (item : Item) : Except DeclarationFault ParamType :=
  let declared := (item.type.map ParamType.ofKeyword).getD .string
  if !item.variadic then .ok declared
  else
    match declared with
    | .string | .strings => .ok .strings
    | other => .error (.notVariadic item.name other.keyword)

/-- The draft of a parameter. -/
def Item.draft (item : Item) : Except DeclarationFault ParamDraft := do
  let type ← item.type?
  return { name := item.name, type, optional := item.optional, default := item.default }

/-- The drafts of all parameters of a signature, in order; a blank text has
none. -/
def read (signature : String) : Except DeclarationFault (List ParamDraft) :=
  if Text.isBlankText signature then .ok []
  else
    match readItems? (signature.length + 1) signature.toList with
    | some items => items.mapM Item.draft
    | none => .error (.malformedSignature signature)

end ChatCommands.Signature
