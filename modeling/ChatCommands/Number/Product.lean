import ChatCommands.Number.Binary

/-!
# Products and quotients of binary numbers

The exact product or quotient of two finite numbers, rounded to the nearest
number of the format.
-/

namespace ChatCommands.FiniteFloat

variable {f : FloatFormat}

/-- The rounded product. -/
def mul (x y : FiniteFloat f) : BinaryFloat f :=
  .round f (x.negative != y.negative) (x.magnitude * y.magnitude) (f.unitScale * f.unitScale)

/-- The rounded quotient; the divisor is not zero. -/
def div (x y : FiniteFloat f) : BinaryFloat f :=
  .round f (x.negative != y.negative) x.magnitude y.magnitude

end ChatCommands.FiniteFloat
