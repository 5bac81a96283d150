import ChatCommands.Json.Fault
import ChatCommands.Text.Blank

/-!
# Scanning JSON texts

Steps of reading that go on from a place in a text and either end at a later
place or refuse the text.  Faults are placed behind the byte that shows them.
-/

namespace ChatCommands.Json

/-- How deeply arrays and objects may be nested. -/
def maxDepth : Nat := 127

/-- The rest of a text, its place, and how many levels of nesting are left. -/
structure Scanner where
  rest : List Char
  place : Place := {}
  room : Nat := maxDepth

namespace Scanner

/-- Goes past a number of characters. -/
def skip : Nat → Scanner → Scanner
  | 0, s => s
  | n + 1, s =>
    match s.rest with
    | [] => s
    | c :: rest => skip n { s with rest, place := s.place.past c }

/-- Goes past the characters that satisfy a test. -/
def skipWhile (test : Char → Bool) (s : Scanner) : Scanner :=
  s.skip (s.rest.takeWhile test).length

end Scanner

/-- A step of reading. -/
abbrev Scan (α : Type) := EStateM Refusal Scanner α

/-- The blanks of JSON. -/
def isGap (c : Char) : Bool :=
  c == ' ' || c == '\n' || c == '\t' || c == '\r'

namespace Scan

variable {α : Type}

/-- Refuses the text at the present place. -/
def failHere (fault : Fault) : Scan α := fun s =>
  .error ⟨fault, some s.place⟩ s

/-- Refuses the text because of the next byte, if there is one. -/
def failNext (fault : Fault) : Scan α := fun s =>
  .error ⟨fault, some (s.place.after 1 s.rest)⟩ s

/-- Refuses the text at a place that is not known yet. -/
def fail (fault : Fault) : Scan α := fun s =>
  .error ⟨fault, none⟩ s

/-- The next character. -/
def next? : Scan (Option Char) := fun s =>
  .ok s.rest.head? s

/-- Goes past a number of characters. -/
def skip (n : Nat) : Scan Unit := fun s =>
  .ok () (s.skip n)

/-- Goes past blanks.  The result is the character behind them. -/
def gap : Scan (Option Char) := fun s =>
  let s := s.skipWhile isGap
  .ok s.rest.head? s

/-- Goes past blanks to a character, which must be there. -/
def start : Scan Char := do
  match ← gap with
  | some c => return c
  | none => failNext .endInValue

/-- Goes past the characters of a word. -/
def word : List Char → Scan Unit
  | [] => return ()
  | c :: cs => do
    match ← next? with
    | none => failNext .endInValue
    | some x => if x == c then do skip 1; word cs else failNext .expectedWord

/-! ## Numbers -/

/-- Goes past digits. -/
def digits : Scan (List Char) := fun s =>
  let ds := s.rest.takeWhile Char.isDigit
  .ok ds (s.skip ds.length)

/-- The digits before the point: a zero stands alone.  The fault is that of a
text that ends here. -/
def wholeDigits (atEnd : Fault) : Scan (List Char) := do
  match ← next? with
  | none => failNext atEnd
  | some c =>
    if c == '0' then
      skip 1
      if (← next?).any Char.isDigit then failNext .invalidNumber else return [c]
    else if c.isDigit then digits
    else failNext .invalidNumber

/-- The digits behind the point, at least one. -/
def placeDigits (atEnd : Fault) : Scan (List Char) := do
  let ds ← digits
  if ds.isEmpty then
    if (← next?).isSome then failNext .invalidNumber else failNext atEnd
  else return ds

/-- How many digits of a numeral are read before it exceeds a bound, with `n` for the
digits in front of them. -/
def digitsWithin (limit : Nat) (n : Nat) : List Char → Nat
  | [] => 0
  | c :: rest =>
    let next := 10 * n + Numeral.value [c]
    if next ≤ limit then digitsWithin limit next rest + 1 else 0

/-- The power behind its mark.  A positive one may be bounded, and is then refused at
the first digit that takes it beyond the bound. -/
def power (atEnd : Fault) (limit : Option Nat) : Scan Int := do
  let sign ← next?
  if sign == some '+' || sign == some '-' then skip 1
  match ← next? with
  | none => failNext atEnd
  | some c =>
    if c.isDigit then
      let ds := (← get).rest.takeWhile Char.isDigit
      let fitting := limit.elim ds.length fun limit => digitsWithin limit 0 ds
      if sign != some '-' && fitting < ds.length then
        skip (fitting + 1)
        failHere .outOfRange
      else
        let n := Numeral.value (← digits)
        return if sign == some '-' then -(n : Int) else n
    else failNext .invalidNumber

/-- The parts of a number behind its sign. -/
structure Numerals where
  whole : List Char
  places : Option (List Char)
  power : Option Int

/-- Reads the parts of a number.  The digits in front of a power give its bound. -/
def numerals (atEnd : Fault) (limit : List Char → Option Nat) : Scan Numerals := do
  let whole ← wholeDigits atEnd
  let places ← if (← next?) == some '.' then do
      skip 1
      pure (some (← placeDigits atEnd))
    else pure none
  let power ← if (← next?).any fun c => c == 'e' || c == 'E' then do
      skip 1
      pure (some (← power atEnd (limit (whole ++ places.getD []))))
    else pure none
  return ⟨whole, places, power⟩

/-! ## Strings -/

/-- Four hexadecimal digits. -/
def hexFour : Scan Nat := fun s =>
  let ds := s.rest.take 4
  if Text.byteLength ds < 4 then failHere .endInString (s.skip ds.length)
  else
    match Numeral.readIn? 16 ds with
    | some n => .ok n (s.skip 4)
    | none => .error ⟨.invalidEscape, some (s.place.after 4 ds)⟩ s

/-- Whether a number is the first part of a pair of surrogates. -/
def isHighSurrogate (n : Nat) : Bool :=
  0xd800 ≤ n && n ≤ 0xdbff

/-- Whether a number is the second part of a pair of surrogates. -/
def isLowSurrogate (n : Nat) : Bool :=
  0xdc00 ≤ n && n ≤ 0xdfff

/-- The character that continues a pair of surrogates. -/
def secondEscape (c : Char) : Scan Unit := do
  match ← next? with
  | none => failNext .endInString
  | some x => if x == c then skip 1 else failNext .unfinishedEscape

/-- A character given by its number or by a pair of surrogates. -/
def numbered : Scan Char := do
  let high ← hexFour
  if isLowSurrogate high then failHere .loneSurrogate
  else if isHighSurrogate high then
    secondEscape '\\'
    secondEscape 'u'
    let low ← hexFour
    if isLowSurrogate low then
      return Char.ofNat (0x10000 + (high - 0xd800) * 0x400 + (low - 0xdc00))
    else failHere .loneSurrogate
  else return Char.ofNat high

/-- The character that a letter behind a backslash stands for. -/
def escaped? : Char → Option Char
  | '"' => some '"'
  | '\\' => some '\\'
  | '/' => some '/'
  | 'b' => some (Char.ofNat 8)
  | 'f' => some (Char.ofNat 12)
  | 'n' => some '\n'
  | 'r' => some '\r'
  | 't' => some '\t'
  | _ => none

/-- The character behind a backslash. -/
def escape (numbered : Scan Char) : Scan Char := do
  match ← next? with
  | none => failNext .endInString
  | some c =>
    match escaped? c with
    | some x =>
      skip 1
      return x
    | none =>
      if c == 'u' then
        skip 1
        numbered
      else failNext .invalidEscape

/-- The rest of a string behind its opening quote.  It is left open what becomes
of control characters and of characters given by number. -/
def stringRest (control numbered : Scan Char) : Nat → Scan (List Char)
  | 0 => failNext .endInString
  | fuel + 1 => do
    match ← next? with
    | none => failNext .endInString
    | some c =>
      if c == '"' then
        skip 1
        return []
      else
        let x ←
          if c == '\\' then do
            skip 1
            escape numbered
          else if c.toNat < 32 then control
          else do
            skip 1
            pure c
        return x :: (← stringRest control numbered fuel)

/-- A string behind its opening quote. -/
def string : Scan String := do
  let fuel := (← get).rest.length + 1
  return String.ofList (← stringRest (failNext .controlCharacter) numbered fuel)

/-! ## Arrays and objects -/

/-- Reads on one level deeper behind an opening bracket. -/
def nested (body : Scan α) : Scan α := do
  match (← get).room with
  | 0 => failNext .tooDeep
  | room + 1 =>
    modify fun s => { s with room }
    skip 1
    let a ← body
    modify fun s => { s with room := room + 1 }
    return a

/-- Goes to the next item of an array.  The result says whether there is one. -/
def nextItem (first : Bool) : Scan Bool := do
  match ← gap with
  | none => failNext .endInList
  | some c =>
    if c == ']' then return false
    else if first then return true
    else if c == ',' then
      skip 1
      match ← gap with
      | some ']' => failNext .trailingComma
      | some _ => return true
      | none => failNext .endInValue
    else failNext .expectedListEnd

/-- The end of an array. -/
def closeList : Scan Unit := do
  match ← gap with
  | some ']' => skip 1
  | some ',' =>
    skip 1
    match ← gap with
    | some ']' => failNext .trailingComma
    | _ => failNext .trailingCharacters
  | some _ => failNext .trailingCharacters
  | none => failNext .endInList

/-- The key of the next field of an object, if there is one. -/
def nextKey (first : Bool) : Scan (Option String) := do
  let key : Scan (Option String) := do
    match ← next? with
    | some '"' =>
      skip 1
      return some (← string)
    | some '\x7d' => failNext .trailingComma
    | some _ => failNext .keyNotString
    | none => failNext .endInValue
  match ← gap with
  | none => failNext .endInObject
  | some c =>
    if c == '\x7d' then return none
    else if first then key
    else if c == ',' then
      skip 1
      let _ ← gap
      key
    else failNext .expectedObjectEnd

/-- The colon behind a key. -/
def colon : Scan Unit := do
  match ← gap with
  | some ':' => skip 1
  | some _ => failNext .expectedColon
  | none => failNext .endInObject

/-- The end of an object. -/
def closeObject : Scan Unit := do
  match ← gap with
  | some '\x7d' => skip 1
  | some ',' => failNext .trailingComma
  | some _ => failNext .trailingCharacters
  | none => failNext .endInObject

/-- Runs a step on a whole text, behind which only blanks may stand. -/
def whole (scan : Scan α) (s : String) : Except Refusal α :=
  let all : Scan α := do
    let a ← scan
    if (← gap).isSome then failNext .trailingCharacters
    return a
  match all { rest := s.toList } with
  | .ok a _ => .ok a
  | .error refusal _ => .error refusal

end Scan

end ChatCommands.Json
