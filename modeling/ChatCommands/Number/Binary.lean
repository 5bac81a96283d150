import ChatCommands.Number.Numeral

/-!
# Binary floating-point numbers

Numbers in a binary interchange format, given by the widths of its two fields.
A finite number is a whole number of smallest units, which turns comparison,
rounding to whole numbers and rounding of quotients into integer arithmetic.
-/

namespace ChatCommands

/-- Widths of the exponent and fraction fields. -/
structure FloatFormat where
  exponentBits : Nat
  fractionBits : Nat

namespace FloatFormat

/-- The format of 64 bits. -/
def double : FloatFormat := ⟨11, 52⟩

/-- The format of 32 bits. -/
def single : FloatFormat := ⟨8, 23⟩

/-- Binary logarithm of the number of smallest units in one. -/
def unitBits (f : FloatFormat) : Nat :=
  Nat.pow 2 (f.exponentBits - 1) - 1 + f.fractionBits - 1

/-- Number of smallest units in one. -/
def unitScale (f : FloatFormat) : Nat :=
  Nat.pow 2 f.unitBits

/-- Number of exponents that finite numbers use. -/
def exponentCount (f : FloatFormat) : Nat :=
  Nat.pow 2 f.exponentBits - 1

/-- Number of fractions. -/
def fractionCount (f : FloatFormat) : Nat :=
  Nat.pow 2 f.fractionBits

theorem fractionCount_pos (f : FloatFormat) : 0 < f.fractionCount :=
  Nat.two_pow_pos f.fractionBits

end FloatFormat

/-- A finite number of a format, by its three fields. -/
structure FiniteFloat (f : FloatFormat) where
  negative : Bool
  exponent : Fin f.exponentCount
  fraction : Fin f.fractionCount
deriving DecidableEq

/-- A number of a format. -/
inductive BinaryFloat (f : FloatFormat) where
  | finite (value : FiniteFloat f)
  | infinite (negative : Bool)
  | nan

/-- A number of the format of 64 bits. -/
abbrev Double := BinaryFloat .double

/-- A number of the format of 32 bits. -/
abbrev Single := BinaryFloat .single

namespace FiniteFloat

variable {f : FloatFormat}

/-- Distance to the next larger number, in smallest units. -/
def gap (x : FiniteFloat f) : Nat :=
  Nat.pow 2 (x.exponent.val - 1)

/-- Distance from zero, in smallest units. -/
def magnitude (x : FiniteFloat f) : Nat :=
  if x.exponent.val = 0 then x.fraction.val
  else (f.fractionCount + x.fraction.val) * x.gap

/-- The number as a whole number of smallest units. -/
def units (x : FiniteFloat f) : Int :=
  if x.negative then -(x.magnitude : Int) else x.magnitude

/-- Equality of numbers; the two zeros are equal. -/
def numericEq (x y : FiniteFloat f) : Bool :=
  x.units == y.units

/-- Whether the number is whole. -/
def isWhole (x : FiniteFloat f) : Bool :=
  x.magnitude % f.unitScale == 0

/-- The greatest whole number that is not larger. -/
def floor (x : FiniteFloat f) : Int :=
  x.units.fdiv f.unitScale

/-- The least whole number that is not smaller. -/
def ceil (x : FiniteFloat f) : Int :=
  -(-x.units).fdiv f.unitScale

end FiniteFloat

/-- A quotient rounded to the nearest whole number, a half to the even one. -/
def roundEven (num den : Nat) : Nat :=
  let q := num / den
  let r := num % den
  if 2 * r < den then q else if den < 2 * r then q + 1 else q + q % 2

namespace BinaryFloat

variable {f g : FloatFormat}

/-- The number whose exponent and fraction fields, read as one number, are
`code`; infinity when the exponent does not fit. -/
def ofCode (f : FloatFormat) (negative : Bool) (code : Nat) : BinaryFloat f :=
  if h : code / f.fractionCount < f.exponentCount then
    .finite ⟨negative, ⟨code / f.fractionCount, h⟩,
      ⟨code % f.fractionCount, Nat.mod_lt _ f.fractionCount_pos⟩⟩
  else .infinite negative

/-- The number nearest to `num / den`, a half to the even fraction. -/
def round (f : FloatFormat) (negative : Bool) (num den : Nat) : BinaryFloat f :=
  let total := num * f.unitScale
  let shift := Nat.log2 (total / den) - f.fractionBits
  ofCode f negative (shift * f.fractionCount + roundEven total (den * Nat.pow 2 shift))

/-- The number nearest to an integer. -/
def ofInt (f : FloatFormat) (n : Int) : BinaryFloat f :=
  round f (n < 0) n.natAbs 1

/-- The nearest number of another format. -/
def convert (g : FloatFormat) : BinaryFloat f → BinaryFloat g
  | .finite x => round g x.negative x.magnitude f.unitScale
  | .infinite negative => .infinite negative
  | .nan => .nan

/-- Whether the number is neither infinite nor missing. -/
def isFinite : BinaryFloat f → Bool
  | .finite _ => true
  | _ => false

/-- The order of numbers; a missing number is in no relation. -/
def lt : BinaryFloat f → BinaryFloat f → Bool
  | .finite x, .finite y => x.units < y.units
  | .finite _, .infinite negative => !negative
  | .infinite negative, .finite _ => negative
  | .infinite a, .infinite b => a && !b
  | _, _ => false

/-- Equality of numbers; the two zeros are equal and a missing number equals
nothing. -/
def numericEq : BinaryFloat f → BinaryFloat f → Bool
  | .finite x, .finite y => x.numericEq y
  | .infinite a, .infinite b => a == b
  | _, _ => false

/-- The larger of two numbers, of which one may be missing. -/
def larger : BinaryFloat f → BinaryFloat f → BinaryFloat f
  | .nan, y => y
  | x, .nan => x
  | x, y => if x.lt y then y else x

/-- The smaller of two numbers, of which one may be missing. -/
def smaller : BinaryFloat f → BinaryFloat f → BinaryFloat f
  | .nan, y => y
  | x, .nan => x
  | x, y => if y.lt x then y else x

/-- The largest finite number of a format, with a sign. -/
def extreme (f : FloatFormat) (negative : Bool) : BinaryFloat f :=
  ofCode f negative (f.exponentCount * f.fractionCount - 1)

/-- A whole number brought into the interval `low, …, high`: infinities go to
its ends and a missing number to zero. -/
def saturate (low high : Int) (whole : FiniteFloat f → Int) : BinaryFloat f → Int
  | .finite x => Numeral.clamp low high (whole x)
  | .infinite negative => if negative then low else high
  | .nan => 0

end BinaryFloat

end ChatCommands
