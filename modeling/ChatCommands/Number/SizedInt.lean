import ChatCommands.Number.Numeral

/-!
# Integers of a width

Signed integers that fit into a word of 8, 16, 32 or 64 bits.
-/

namespace ChatCommands

/-- Widths of signed words. -/
inductive Width where
  | w8
  | w16
  | w32
  | w64
deriving DecidableEq

namespace Width

/-- The greatest integer of the width. -/
def high : Width → Int
  | w8 => 0x7f
  | w16 => 0x7fff
  | w32 => 0x7fffffff
  | w64 => Numeral.maxInt64

/-- The least integer of the width. -/
def low (w : Width) : Int := -w.high - 1

end Width

/-- An integer that fits into a word. -/
structure SizedInt (w : Width) where
  val : Int
  low_le : w.low ≤ val
  le_high : val ≤ w.high
deriving DecidableEq

namespace SizedInt

variable {w : Width}

/-- The integer, if it fits. -/
def of? (w : Width) (n : Int) : Option (SizedInt w) :=
  if h : w.low ≤ n ∧ n ≤ w.high then some ⟨n, h.1, h.2⟩ else none

/-- Zero fits every width. -/
def zero (w : Width) : SizedInt w :=
  ⟨0, by cases w <;> decide, by cases w <;> decide⟩

instance : Inhabited (SizedInt w) := ⟨zero w⟩

/-- Reads digits with an optional sign. -/
def read? (w : Width) (cs : List Char) : Option (SizedInt w) :=
  (Numeral.readInt? cs).bind (of? w)

end SizedInt

end ChatCommands
