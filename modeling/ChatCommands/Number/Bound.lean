import ChatCommands.Number.Decimal
import ChatCommands.Number.SizedInt
import ChatCommands.Text.Blank

/-!
# Bounds

Limits of numeric parameters.  A bound stays in the kind in which it was
written, so that integer limits are exact where doubles are not.
-/

namespace ChatCommands

/-- A limit, written as an integer or as a decimal fraction. -/
inductive Bound where
  | integer (n : SizedInt .w64)
  | float (x : Double)

namespace Bound

/-- Reads an integer if possible and a finite number otherwise. -/
def read? (s : String) : Option Bound :=
  let inner := Text.trim s
  match SizedInt.read? .w64 inner.toList with
  | some n => some (.integer n)
  | none => ((Double.read? inner).filter (·.isFinite)).map .float

/-- The nearest double. -/
def toDouble : Bound → Double
  | .integer n => .ofInt .double n.val
  | .float x => x

/-- The decimal that stands for the bound, if it is in range. -/
def toDecimal? : Bound → Option Decimal
  | .integer n => Decimal.ofInt? n.val
  | .float x => Decimal.ofDouble? x

/-- The least integer at or above the bound, within 128 bits. -/
def ceil : Bound → Int
  | .integer n => n.val
  | .float x => x.saturate Numeral.minInt128 Numeral.maxInt128 FiniteFloat.ceil

/-- The greatest integer at or below the bound, within 128 bits. -/
def floor : Bound → Int
  | .integer n => n.val
  | .float x => x.saturate Numeral.minInt128 Numeral.maxInt128 FiniteFloat.floor

/-- The bound as messages show it. -/
def text : Bound → String
  | .integer n => Numeral.intText n.val
  | .float x => x.text

end Bound

end ChatCommands
