import ChatCommands.Json.Scanner
import ChatCommands.Number.Product

/-!
# Reading JSON

A reader for JSON texts.  Nesting is limited, later fields replace earlier ones
of the same name, and numbers that are no 64-bit integers become doubles.
-/

namespace ChatCommands.Json

/-! ## Numbers -/

/-- Digits of a number that do not go beyond a word of 64 bits, and how many
were left over. -/
def leadingDigits : Nat → List Char → Nat × Nat
  | n, [] => (n, 0)
  | n, c :: rest =>
    let next := 10 * n + Numeral.value [c]
    if next ≤ Numeral.max64 then leadingDigits next rest else (n, rest.length + 1)

/-- The power of ten that is nearest to `10 ^ n`. -/
def powerOfTen (n : Nat) : Double :=
  .round .double false (Nat.pow 10 n) 1

/-- Divides by `10 ^ n`, at most 308 places at a time. -/
def divideDown : Nat → Double → Nat → Double
  | 0, x, _ => x
  | fuel + 1, x, n =>
    match x, powerOfTen (min n 308) with
    | .finite a, .finite p =>
      if n ≤ 308 then a.div p else divideDown fuel (a.div p) (n - 308)
    | _, _ => x

/-- The double of digits and an exponent: the digits and the power of ten are
rounded first and their product or quotient is rounded again. -/
def scaled? (digits : Nat) (exponent : Int) : Option (FiniteFloat .double) :=
  let start : Double := .round .double false digits 1
  let result :=
    if digits = 0 then start
    else if exponent < 0 then divideDown 4 start exponent.natAbs
    else if 308 < exponent then .infinite false
    else
      match start, powerOfTen exponent.toNat with
      | .finite a, .finite p => a.mul p
      | _, _ => .infinite false
  match result with
  | .finite x => some x
  | _ => none

/-- The value of a number, unless it is too great. -/
def ofNumerals? (negative : Bool) (n : Scan.Numerals) : Option Json :=
  let k := Numeral.value n.whole
  let isWhole := n.places.isNone && n.power.isNone
  if isWhole && !negative && k ≤ Numeral.max64 then some (.integer k)
  else if isWhole && negative && k != 0 && k ≤ Numeral.minInt64.natAbs then
    some (.integer (-(k : Int)))
  else
    let places := n.places.getD []
    let (digits, more) := leadingDigits 0 n.whole
    let (digits, unread) := leadingDigits digits places
    let exponent := n.power.getD 0 + (more : Int) + (unread : Int) - (places.length : Int)
    (scaled? digits exponent).map fun x => .float { x with negative }

namespace Scan

/-- The greatest power of ten that is taken behind some digits.  Behind zeros it does
not matter. -/
def powerLimit (digits : List Char) : Option Nat :=
  if digits.all (· == '0') then none else some 0x7fffffff

/-- A number behind its sign. -/
def number (negative : Bool) : Scan Json := do
  match ofNumerals? negative (← numerals .endInValue powerLimit) with
  | some v => return v
  | none => failHere .outOfRange

/-! ## Values -/

mutual

/-- A value behind optional blanks. -/
def valueWithin : Nat → Scan Json
  | 0 => failNext .expectedValue
  | fuel + 1 => do
    match ← start with
    | 'n' =>
      skip 1
      word ['u', 'l', 'l']
      return .null
    | 't' =>
      skip 1
      word ['r', 'u', 'e']
      return .bool true
    | 'f' =>
      skip 1
      word ['a', 'l', 's', 'e']
      return .bool false
    | '"' =>
      skip 1
      return .string (← string)
    | '-' =>
      skip 1
      number true
    | '[' =>
      let items ← nested (itemsWithin true fuel)
      closeList
      return .array items
    | '{' =>
      let fields ← nested (fieldsWithin true fuel)
      closeObject
      return ofFields fields
    | c => if c.isDigit then number false else failNext .expectedValue

/-- The items of an array up to its closing bracket. -/
def itemsWithin (first : Bool) : Nat → Scan (List Json)
  | 0 => failNext .endInList
  | fuel + 1 => do
    if ← nextItem first then
      let item ← valueWithin fuel
      return item :: (← itemsWithin false fuel)
    else return []

/-- The fields of an object up to its closing bracket. -/
def fieldsWithin (first : Bool) : Nat → Scan (List (String × Json))
  | 0 => failNext .endInObject
  | fuel + 1 => do
    match ← nextKey first with
    | some key =>
      colon
      let value ← valueWithin fuel
      return (key, value) :: (← fieldsWithin false fuel)
    | none => return []

end

/-- A value. -/
def value : Scan Json := do
  valueWithin (2 * (← get).rest.length + 2)

end Scan

/-- The value that a text holds, with nothing but blanks around it. -/
def read (s : String) : Except Refusal Json :=
  Scan.value.whole s

/-- The value that a text holds, if it is in order. -/
def read? (s : String) : Option Json :=
  (read s).toOption

end ChatCommands.Json
