import ChatCommands.Number.FloatText

/-!
# Decimals

Decimal numbers with a coefficient of 96 bits and at most 28 places.  The number
of places is part of a decimal and is shown, while comparison looks at the
number alone.
-/

namespace ChatCommands

/-- Number of coefficients, which have 96 bits. -/
def Decimal.coefficientCount : Nat := 0x1000000000000000000000000

/-- The number `± coefficient / 10 ^ scale`. -/
structure Decimal where
  negative : Bool
  coefficient : Fin Decimal.coefficientCount
  scale : Fin 29
deriving DecidableEq

namespace Decimal

/-- The greatest number of places. -/
def maxScale : Nat := 28

/-- The decimal with the given parts, if they fit. -/
def ofParts? (negative : Bool) (coefficient scale : Nat) : Option Decimal :=
  if h : coefficient < coefficientCount ∧ scale < 29 then
    some ⟨negative, ⟨coefficient, h.1⟩, ⟨scale, h.2⟩⟩
  else none

/-- Zero without places. -/
def zero : Decimal := ⟨false, ⟨0, by decide⟩, 0⟩

/-- The coefficient with its sign. -/
def signedCoefficient (d : Decimal) : Int :=
  if d.negative then -(d.coefficient.val : Int) else d.coefficient.val

/-- Order of the numbers, whatever their places. -/
def compare (a b : Decimal) : Ordering :=
  Ord.compare (a.signedCoefficient * Nat.pow 10 b.scale.val)
    (b.signedCoefficient * Nat.pow 10 a.scale.val)

/-- Whether one number is less than another. -/
def lt (a b : Decimal) : Bool :=
  a.compare b == .lt

/-- Equality of the numbers, whatever their places. -/
def numericEq (a b : Decimal) : Bool :=
  a.compare b == .eq

/-- The decimal of an integer, if it fits. -/
def ofInt? (n : Int) : Option Decimal :=
  ofParts? (n < 0) n.natAbs 0

/-- The digits with as many places as the scale says. -/
def text (d : Decimal) : String :=
  signed d.negative (Scientific.inPlace ⟨d.coefficient.val, -(d.scale.val : Int)⟩)

/-- Removes trailing zeros from the places. -/
def normalize (d : Decimal) : Decimal :=
  if d.coefficient.val = 0 then zero
  else
    let (coefficient, scale) := go d.scale.val d.coefficient.val
    (ofParts? d.negative coefficient scale).getD d
where
  go : Nat → Nat → Nat × Nat
    | 0, n => (n, 0)
    | scale + 1, n => if n % 10 = 0 then go scale (n / 10) else (n, scale + 1)

/-! ## Reading -/

/-- A decimal that was read; a zero has no sign. -/
def ofReading (negative : Bool) (coefficient scale : Nat) : Option Decimal :=
  ofParts? (negative && coefficient != 0) coefficient scale

/-- Ends a reading at the digit behind the last place: it only decides whether that
place is rounded up.  The characters after it are digits or underscores. -/
def roundOff (negative : Bool) (coefficient scale digit : Nat) (rest : List Char) :
    Option Decimal :=
  if !rest.all fun c => c.isDigit || c == '_' then none
  else if digit < 5 then ofReading negative coefficient scale
  else if coefficient + 1 < coefficientCount then ofReading negative (coefficient + 1) scale
  else if scale = 0 then none
  else ofReading negative ((coefficient + 5) / 10) (scale - 1)

/-- Whether the digits before the last one exceed what a word of 64 bits can still
extend by a digit, with a margin of one byte.  Below that bound, an underscore behind
the last place is a digit zero; from there on it is passed over. -/
def isWide (coefficient : Nat) : Bool :=
  Numeral.max64 / 10 - 0xff ≤ coefficient / 10

/-- Reads digits, at most one point, and underscores behind a digit. -/
def scan (negative point seen : Bool) (coefficient scale : Nat) : List Char → Option Decimal
  | [] => if seen then ofReading negative coefficient scale else none
  | c :: rest =>
    let full := point && maxScale ≤ scale
    if c.isDigit then
      let digit := Numeral.value [c]
      let next := 10 * coefficient + digit
      if !full && next < coefficientCount then
        scan negative point true next (if point then scale + 1 else scale) rest
      else if point then roundOff negative coefficient scale digit rest
      else none
    else if c == '_' && seen then
      if full && !isWide coefficient then roundOff negative coefficient scale 0 rest
      else scan negative point seen coefficient scale rest
    else if c == '.' && !point then scan negative true seen coefficient scale rest
    else none

/-- Reads a decimal without an exponent. -/
def readPlain? : List Char → Option Decimal
  | [] => none
  | '-' :: rest => scan true false false 0 0 rest
  | '+' :: rest => scan false false false 0 0 rest
  | cs => scan false false false 0 0 cs

/-- Moves the point to the right.  Zeros at the end are dropped where the places do
not suffice. -/
def shiftUp (d : Decimal) (places : Nat) : Option Decimal :=
  if places ≤ d.scale.val then ofParts? d.negative d.coefficient.val (d.scale.val - places)
  else if maxScale < places then none
  else
    (ofParts? d.negative (d.coefficient.val * Nat.pow 10 (places - d.scale.val)) 0).map normalize

/-- The coefficient without a number of places, where a half is rounded up. -/
def roundedCoefficient (d : Decimal) (places : Nat) : Nat :=
  let unit := Nat.pow 10 places
  (2 * d.coefficient.val + unit) / (2 * unit)

/-- Moves the point to the left.  Places beyond the last one that a decimal can have
are rounded off. -/
def shiftDown (d : Decimal) (places : Nat) : Option Decimal :=
  if maxScale < places then none
  else
    let beyond := d.scale.val + places - maxScale
    ofParts? d.negative (d.roundedCoefficient beyond) (d.scale.val + places - beyond)

/-- Reads a decimal with an exponent.  A sign anywhere in the exponent decides
its direction, and the first character is then left out. -/
def readScientific? (cs : List Char) : Option Decimal :=
  match cs.span fun c => c != 'e' && c != 'E' with
  | (_, []) => none
  | (base, _ :: power) =>
    (readPlain? base).bind fun d =>
      let places? (digits : List Char) := Numeral.readUnsigned? 0xffffffff digits
      if power.contains '-' then (places? power.tail).bind d.shiftDown
      else
        (places? (if power.contains '+' then power.tail else power)).bind d.shiftUp

/-- Reads a decimal, with or without an exponent. -/
def read? (s : String) : Option Decimal :=
  (readPlain? s.toList).or (readScientific? s.toList)

/-! ## Conversion from binary numbers -/

/-- A coefficient on its way from base two to base ten: the number
`coefficient · 10 ^ exponent`. -/
structure Conversion where
  coefficient : Nat
  exponent : Int

namespace Conversion

/-- Divides by a power of two: an even coefficient is halved, an odd one is
multiplied by five, and one that has no room for that loses its last bit. -/
def halve : Nat → Conversion → Conversion
  | 0, c => c
  | times + 1, c =>
    if c.coefficient % 2 = 0 then halve times ⟨c.coefficient / 2, c.exponent + 1⟩
    else if 5 * c.coefficient < coefficientCount then halve times ⟨5 * c.coefficient, c.exponent⟩
    else halve times ⟨c.coefficient / 2, c.exponent + 1⟩

/-- Drops the last place, rounding a half up. -/
def dropPlace (c : Conversion) : Conversion :=
  ⟨c.coefficient / 10 + (if 5 ≤ c.coefficient % 10 then 1 else 0), c.exponent + 1⟩

/-- Drops places beyond the last one that a decimal can have.  When nothing is
left the number is zero. -/
def dropBeyond : Nat → Conversion → Conversion
  | 0, c => c
  | times + 1, c =>
    if c.coefficient < 10 then ⟨0, 0⟩ else dropBeyond times c.dropPlace

/-- Drops places that go beyond the precision of the binary number. -/
def dropNoise : Nat → Conversion → Conversion
  | 0, c => c
  | times + 1, c =>
    if FloatFormat.double.fractionCount ≤ c.coefficient then dropNoise times c.dropPlace else c

/-- Drops zeros at the end of the places. -/
def dropZeros : Nat → Conversion → Conversion
  | 0, c => c
  | times + 1, c =>
    if c.coefficient % 10 = 0 then dropZeros times ⟨c.coefficient / 10, c.exponent + 1⟩ else c

end Conversion

/-- The decimal that stands for a double: a whole number as it is, and another one with
about sixteen digits. -/
def ofFinite? (x : FiniteFloat .double) : Option Decimal :=
  if x.magnitude = 0 then some { zero with negative := x.negative }
  else
    let significand :=
      if x.exponent.val = 0 then x.fraction.val
      else FloatFormat.double.fractionCount + x.fraction.val
    let power : Int := ((x.exponent.val - 1 : Nat) : Int) - (FloatFormat.double.unitBits : Int)
    if 0 ≤ power then ofParts? x.negative (significand * Nat.pow 2 power.natAbs) 0
    else
      let c := Conversion.halve power.natAbs ⟨significand, power⟩
      let c := c.dropBeyond (-(maxScale : Int) - c.exponent).toNat
      let c := c.dropNoise (-c.exponent).toNat
      let c := c.dropZeros (-c.exponent).toNat
      ofParts? x.negative c.coefficient (-c.exponent).toNat

/-- The decimal that stands for a double, if it is in range. -/
def ofDouble? : Double → Option Decimal
  | .finite x => ofFinite? x
  | _ => none

end Decimal

end ChatCommands
