/-!
# Numerals

Whole numbers written in digits, with the bounds of the word that has to hold
them.  Only the ten digits of ASCII are digits here, and the letters from `a` to
`f` where a base asks for them.
-/

namespace ChatCommands.Numeral

/-- The number that a list of digits denotes. -/
def value (digits : List Char) : Nat :=
  digits.foldl (fun n c => 10 * n + (c.toNat - '0'.toNat)) 0

/-- One or more digits. -/
def read? (cs : List Char) : Option Nat :=
  if cs.isEmpty || !cs.all Char.isDigit then none else some (value cs)

/-- Digits with an optional plus sign, for a word that holds `0, …, limit`. -/
def readUnsigned? (limit : Nat) (cs : List Char) : Option Nat :=
  let digits := match cs with
    | '+' :: rest => rest
    | _ => cs
  (read? digits).filter (· ≤ limit)

/-- Digits with an optional sign, without a limit. -/
def readInt? (cs : List Char) : Option Int :=
  match cs with
  | '-' :: rest => (read? rest).map fun n => -(n : Int)
  | '+' :: rest => (read? rest).map fun n => (n : Int)
  | _ => (read? cs).map fun n => (n : Int)

/-- Digits with an optional sign, for a word that holds `low, …, high`. -/
def readSigned? (low high : Int) (cs : List Char) : Option Int :=
  (readInt? cs).filter fun n => low ≤ n && n ≤ high

/-- The digits of a number. -/
def digits (n : Nat) : List Char :=
  Nat.toDigits 10 n

/-- The numeral of a number. -/
def text (n : Nat) : String :=
  String.ofList (digits n)

/-- The numeral of an integer, with a minus sign where it is needed. -/
def intText (n : Int) : String :=
  match n with
  | .ofNat m => text m
  | .negSucc m => "-" ++ text (m + 1)

/-- The value of a hexadecimal digit. -/
def hexValue? (c : Char) : Option Nat :=
  if c.isDigit then some (c.toNat - '0'.toNat)
  else if 'a' ≤ c ∧ c ≤ 'f' then some (c.toNat - 'a'.toNat + 10)
  else if 'A' ≤ c ∧ c ≤ 'F' then some (c.toNat - 'A'.toNat + 10)
  else none

/-- One or more digits of a base up to sixteen. -/
def readIn? (base : Nat) (cs : List Char) : Option Nat := do
  if cs.isEmpty then none
  let values ← cs.mapM hexValue?
  if values.all (· < base) then return values.foldl (fun n d => base * n + d) 0 else none

/-- The greatest number of a 64-bit word. -/
def max64 : Nat := 0xffffffffffffffff

/-- The least integer of a signed 64-bit word. -/
def minInt64 : Int := -0x8000000000000000

/-- The greatest integer of a signed 64-bit word. -/
def maxInt64 : Int := 0x7fffffffffffffff

/-- The greatest number of a 128-bit word. -/
def max128 : Nat := 0xffffffffffffffffffffffffffffffff

/-- The least integer of a signed 128-bit word. -/
def minInt128 : Int := -0x80000000000000000000000000000000

/-- The greatest integer of a signed 128-bit word. -/
def maxInt128 : Int := 0x7fffffffffffffffffffffffffffffff

/-- The nearest number of an interval. -/
def clamp (low high n : Int) : Int :=
  if n < low then low else if high < n then high else n

end ChatCommands.Numeral
