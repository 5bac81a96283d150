import ChatCommands.Number.Binary

/-!
# Shortest decimals

The decimal with the fewest digits among those that round to a given binary
number.  For one digit, two digits and so on, the two neighbours of the number
on the decimal grid of that many digits are tested against the interval of the
reals that round to the number; the first grid with a hit wins, and of two hits
the nearer.
-/

namespace ChatCommands

/-- Which of two equally near decimals is taken. -/
inductive Tie where
  | up
  | even

/-- The number `digits · 10 ^ exponent`. -/
structure Scientific where
  digits : Nat
  exponent : Int

namespace Scientific

/-- The number without the places of a negative exponent. -/
def numerator (d : Scientific) : Nat :=
  d.digits * Nat.pow 10 d.exponent.toNat

/-- What the number without its places is divided by. -/
def denominator (d : Scientific) : Nat :=
  Nat.pow 10 (-d.exponent).toNat

end Scientific

namespace FiniteFloat

variable {f : FloatFormat}

/-- The lower end of the reals that round to the number, in quarters of the
smallest unit.  Below a power of two the gap is half as wide. -/
def lowerEnd (x : FiniteFloat f) : Nat :=
  4 * x.magnitude - if x.fraction.val = 0 && 1 < x.exponent.val then x.gap else 2 * x.gap

/-- The upper end of the reals that round to the number, in quarters of the
smallest unit. -/
def upperEnd (x : FiniteFloat f) : Nat :=
  4 * x.magnitude + 2 * x.gap

/-- Order of `digits · 10 ^ exponent` and a number of quarters of the smallest
unit. -/
def compareDecimal (f : FloatFormat) (d : Scientific) (quarters : Nat) : Ordering :=
  compare (d.numerator * (4 * f.unitScale)) (quarters * d.denominator)

/-- Whether a decimal rounds to the number.  The ends of the interval count when
the fraction is even. -/
def readsBack (x : FiniteFloat f) (d : Scientific) : Bool :=
  let closed := x.fraction.val % 2 == 0
  let low := compareDecimal f d x.lowerEnd
  let high := compareDecimal f d x.upperEnd
  (low == .gt || (closed && low == .eq)) && (high == .lt || (closed && high == .eq))

/-- The least power of ten that is larger than the number, which is not zero. -/
def decimalScale (x : FiniteFloat f) : Int :=
  if f.unitScale ≤ x.magnitude then (Numeral.digits (x.magnitude / f.unitScale)).length
  else 1 - ((Numeral.digits ((f.unitScale - 1) / x.magnitude)).length : Int)

/-- The greatest decimal of the grid `10 ^ exponent` that is not larger than the
distance from zero. -/
def below (x : FiniteFloat f) (exponent : Int) : Nat :=
  x.magnitude * Nat.pow 10 (-exponent).toNat / (f.unitScale * Nat.pow 10 exponent.toNat)

/-- The nearest decimal with at most `count` digits that rounds to the number. -/
def onGrid (x : FiniteFloat f) (tie : Tie) (count : Nat) : Option Scientific :=
  let exponent := x.decimalScale - count
  let low : Scientific := ⟨x.below exponent, exponent⟩
  let high : Scientific := ⟨low.digits + 1, exponent⟩
  match x.readsBack low, x.readsBack high with
  | false, false => none
  | true, false => some low
  | false, true => some high
  | true, true =>
    let middle : Scientific := ⟨low.digits + high.digits, exponent⟩
    match compareDecimal f middle (8 * x.magnitude), tie with
    | .gt, _ => some low
    | .lt, _ => some high
    | .eq, .up => some high
    | .eq, .even => some (if low.digits % 2 == 0 then low else high)

end FiniteFloat

/-- Moves trailing zeros of the digits into the exponent. -/
def Scientific.strip (d : Scientific) : Scientific :=
  go (Numeral.digits d.digits).length d
where
  go : Nat → Scientific → Scientific
    | 0, d => d
    | fuel + 1, d =>
      if d.digits != 0 && d.digits % 10 == 0 then go fuel ⟨d.digits / 10, d.exponent + 1⟩ else d

/-- The shortest decimal that rounds to a number, whose sign is left aside. -/
def FiniteFloat.shortest {f : FloatFormat} (x : FiniteFloat f) (tie : Tie) : Scientific :=
  if x.magnitude = 0 then ⟨0, 0⟩
  else
    match (List.range 17).findSome? fun n => x.onGrid tie (n + 1) with
    | some d => d.strip
    | none => Scientific.strip ⟨x.magnitude * Nat.pow 5 f.unitBits, -(f.unitBits : Int)⟩

end ChatCommands
