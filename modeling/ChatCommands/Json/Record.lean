import ChatCommands.Json.Reader

/-!
# Reading records from JSON

Steps that read values of a known form: texts, numbers, lists and records with
named fields.  A value of another form is refused together with what was
expected.
-/

namespace ChatCommands.Json.Scan

variable {α π : Type}

/-- Places a fault whose place is open at the end of the step. -/
def placed (body : Scan α) : Scan α := fun s =>
  match body s with
  | .ok a s => .ok a s
  | .error refusal s => .error { refusal with place := refusal.place.or (some s.place) } s

/-- Runs a step and then one that closes it, which goes on also behind a fault of
the first step.  That fault counts. -/
def closed (close : Scan Unit) (body : Scan α) : Scan α := fun s =>
  match body s with
  | .ok a s =>
    match close s with
    | .ok _ s => .ok a s
    | .error refusal s => .error refusal s
  | .error refusal s =>
    match close s with
    | .ok _ s | .error _ s => .error refusal s

/-- Refuses the next value, where something else was expected. -/
def mismatch (expected : String) : Scan α :=
  placed do
    match ← next? with
    | some '[' => fail (.wrongType (found (.array [])) expected)
    | some '{' => fail (.wrongType (found (.object [])) expected)
    | _ =>
      let v ← value
      fail (.wrongType (found v) expected)

/-! ## Scalars -/

/-- A text. -/
def text : Scan String := do
  match ← start with
  | '"' =>
    skip 1
    string
  | _ => mismatch "a string"

/-- A truth value. -/
def flag : Scan Bool := do
  match ← start with
  | 't' =>
    skip 1
    word ['r', 'u', 'e']
    return true
  | 'f' =>
    skip 1
    word ['a', 'l', 's', 'e']
    return false
  | _ => mismatch "a boolean"

/-- Nothing. -/
def nothing : Scan Unit := do
  match ← start with
  | 'n' =>
    skip 1
    word ['u', 'l', 'l']
  | _ => mismatch "unit"

/-- A whole number of 64 bits without sign. -/
def count : Scan Nat := do
  let c ← start
  if c == '-' || c.isDigit then
    placed do
      match ← value with
      | .integer (.ofNat n) => return n
      | .integer n => fail (.wrongValue (found (.integer n)) "usize")
      | v => fail (.wrongType (found v) "usize")
  else mismatch "usize"

/-- A value or nothing. -/
def orNothing (item : Scan α) : Scan (Option α) := do
  match ← gap with
  | some 'n' =>
    nothing
    return none
  | _ => return some (← item)

/-- One of some names, in quotes that were not passed yet. -/
def name (known : List (String × α)) : Scan α :=
  placed do
    skip 1
    let s ← string
    match known.find? (·.1 == s) with
    | some (_, a) => return a
    | none => fail (.unknownName s (known.map (·.1)))

/-- One of some names as the key of nothing, behind an opening bracket. -/
def nameAsKey (known : List (String × α)) : Scan α := do
  match ← start with
  | '"' =>
    let a ← name known
    colon
    nothing
    return a
  | '\x7d' => failNext .expectedValue
  | _ => failNext .keyNotString

/-- One of some names, which may also be the key of nothing. -/
def oneOf (known : List (String × α)) : Scan α := do
  match ← start with
  | '"' => name known
  | '{' =>
    let a ← nested (nameAsKey known)
    match ← gap with
    | some '\x7d' =>
      skip 1
      return a
    | some _ => failHere .expectedValue
    | none => failHere .endInObject
  | _ => failNext .expectedValue

/-! ## Lists and dictionaries -/

/-- The items of a list up to its closing bracket. -/
def listWithin (item : Scan α) (first : Bool) : Nat → Scan (List α)
  | 0 => failNext .endInList
  | fuel + 1 => do
    if ← nextItem first then
      let a ← item
      return a :: (← listWithin item false fuel)
    else return []

/-- A list. -/
def list (item : Scan α) : Scan (List α) := do
  let fuel := (← get).rest.length
  match ← start with
  | '[' => placed (closed closeList (nested (listWithin item true fuel)))
  | _ => mismatch "a sequence"

/-- The entries of a dictionary up to its closing bracket. -/
def dictWithin (item : Scan α) (first : Bool) : Nat → Scan (List (String × α))
  | 0 => failNext .endInObject
  | fuel + 1 => do
    match ← nextKey first with
    | some key =>
      colon
      let a ← item
      return (key, a) :: (← dictWithin item false fuel)
    | none => return []

/-- A dictionary, in which the last value of a key counts. -/
def dict (item : Scan α) : Scan (Dict α) := do
  let fuel := (← get).rest.length
  match ← start with
  | '{' => return .ofList (← placed (closed closeObject (nested (dictWithin item true fuel))))
  | _ => mismatch "a map"

/-! ## Values that nobody asked for -/

/-- Goes past a number behind its sign, however great. -/
def skipNumber : Scan Unit := do
  let _ ← numerals .invalidNumber fun _ => none

/-- Goes past a string behind its opening quote, whatever its numbered characters
stand for. -/
def skipString : Scan Unit := do
  let any : Scan Char := do
    let _ ← hexFour
    return ' '
  let _ ← stringRest (failHere .controlCharacter) any ((← get).rest.length + 1)

mutual

/-- Goes past a value of any depth. -/
def skipWithin : Nat → Scan Unit
  | 0 => failNext .expectedValue
  | fuel + 1 => do
    match ← start with
    | 'n' =>
      skip 1
      word ['u', 'l', 'l']
    | 't' =>
      skip 1
      word ['r', 'u', 'e']
    | 'f' =>
      skip 1
      word ['a', 'l', 's', 'e']
    | '"' =>
      skip 1
      skipString
    | '-' =>
      skip 1
      skipNumber
    | '[' =>
      skip 1
      skipItems true fuel
    | '{' =>
      skip 1
      skipFields true fuel
    | c => if c.isDigit then skipNumber else failNext .expectedValue

/-- Goes past the items of an array and its closing bracket. -/
def skipItems (first : Bool) : Nat → Scan Unit
  | 0 => failNext .endInList
  | fuel + 1 => do
    match ← gap with
    | none => failNext .endInList
    | some c =>
      if c == ']' then skip 1
      else if first then
        skipWithin fuel
        skipItems false fuel
      else if c == ',' then
        skip 1
        skipWithin fuel
        skipItems false fuel
      else failNext .expectedListEnd

/-- Goes past the fields of an object and its closing bracket. -/
def skipFields (first : Bool) : Nat → Scan Unit
  | 0 => failNext .endInObject
  | fuel + 1 => do
    let field : Scan Unit := do
      match ← gap with
      | some '"' =>
        skip 1
        skipString
        colon
        skipWithin fuel
        skipFields false fuel
      | some _ => failNext .keyNotString
      | none => failNext .endInObject
    match ← gap with
    | none => failNext .endInObject
    | some c =>
      if c == '\x7d' then skip 1
      else if first then field
      else if c == ',' then
        skip 1
        field
      else failNext .expectedObjectEnd

end

/-- Goes past a value. -/
def skipValue : Scan Unit := do
  skipWithin (2 * (← get).rest.length + 2)

/-! ## Records -/

/-- A field of a record that is read part by part. -/
structure Field (π : Type) where
  name : String
  isGiven : π → Bool
  read : π → Scan π

/-- Reads fields by name up to the closing bracket.  Fields that a record does not
have are passed over, and none of its fields may be repeated. -/
def fields (known : List (Field π)) (first : Bool) : Nat → π → Scan π
  | 0, _ => failNext .endInObject
  | fuel + 1, parts => do
    match ← nextKey first with
    | none => return parts
    | some key =>
      match known.find? (·.name == key) with
      | some field =>
        if field.isGiven parts then fail (.repeatedField key)
        else
          colon
          let parts ← field.read parts
          fields known false fuel parts
      | none =>
        colon
        skipValue
        fields known false fuel parts

/-- Reads fields by their position, as many as there are items. -/
def positions (first : Bool) : List (Field π) → π → Scan π
  | [], parts => return parts
  | field :: rest, parts => do
    if ← nextItem first then
      let parts ← field.read parts
      positions false rest parts
    else return parts

/-- A record, written with its fields or as the list of their values in order.
Its parts are put together at the end, where the first missing field is
reported. -/
def record (title : String) (known : List (Field π)) (none : π)
    (finish : π → Except String α) : Scan α := do
  let fuel := (← get).rest.length
  match ← start with
  | '{' =>
    placed <| closed closeObject <| nested do
      match finish (← fields known true fuel none) with
      | .ok a => return a
      | .error missing => fail (.missingField missing)
  | '[' =>
    placed <| closed closeList <| nested do
      match finish (← positions true known none) with
      | .ok a => return a
      | .error missing =>
        let length := known.findIdx (·.name == missing)
        fail <| .wrongLength length <|
          title ++ " with " ++ Numeral.text known.length ++ " elements"
  | _ => mismatch title

end ChatCommands.Json.Scan
