import ChatCommands.Number.Shortest

/-!
# Floating-point numbers as text

Two ways of writing the shortest decimal of a number, and one way of reading a
decimal.  Messages write all digits in place and no trailing `.0`; data files
keep a point or an exponent, so that the number stays a floating-point number.
-/

namespace ChatCommands

/-- The digits of a decimal in place, with zeros on either side where the point
lies outside of them. -/
def Scientific.inPlace (d : Scientific) : List Char :=
  let digits := Numeral.digits d.digits
  if 0 ≤ d.exponent then digits ++ List.replicate d.exponent.toNat '0'
  else
    let places := (-d.exponent).toNat
    if places < digits.length then
      digits.take (digits.length - places) ++ '.' :: digits.drop (digits.length - places)
    else '0' :: '.' :: (List.replicate (places - digits.length) '0' ++ digits)

/-- A decimal with one digit before the point and an explicit exponent. -/
def Scientific.withExponent (d : Scientific) : List Char :=
  let digits := Numeral.digits d.digits
  let exponent := d.exponent + (digits.length : Int) - 1
  digits.take 1 ++ (if digits.length ≤ 1 then [] else '.' :: digits.drop 1) ++
    'e' :: (if exponent < 0 then '-' else '+') :: Numeral.digits exponent.natAbs

/-- Places a minus sign in front. -/
def signed (negative : Bool) (cs : List Char) : String :=
  String.ofList (if negative then '-' :: cs else cs)

namespace BinaryFloat

variable {f : FloatFormat}

/-- A number as messages show it: the shortest digits, all in place.  Of two
equally near decimals the upper one is written. -/
def text : BinaryFloat f → String
  | .finite x => signed x.negative (x.shortest .up).inPlace
  | .infinite negative => signed negative "inf".toList
  | .nan => "NaN"

end BinaryFloat

namespace FiniteFloat

/-- A number as data files hold it: in place for leading digits between the
fifth place after the point and the sixteenth before it, and with an exponent
elsewhere.  Of two equally near decimals the even one is written. -/
def dataText {f : FloatFormat} (x : FiniteFloat f) : String :=
  let d := x.shortest .even
  let leading := d.exponent + ((Numeral.digits d.digits).length : Int) - 1
  signed x.negative <|
    if -5 ≤ leading ∧ leading ≤ 15 then
      if 0 ≤ d.exponent then d.inPlace ++ ['.', '0'] else d.inPlace
    else d.withExponent

end FiniteFloat

namespace Double

/-- The digits and the exponent of an unsigned decimal: digits with at most one
point among them, at least one digit, and an optional exponent. -/
def readScientific? (cs : List Char) : Option Scientific :=
  let (whole, rest) := cs.span Char.isDigit
  let (places, rest) := match rest with
    | '.' :: rest => rest.span Char.isDigit
    | _ => ([], rest)
  if whole.isEmpty && places.isEmpty then none
  else
    let exponent? := match rest with
      | [] => some 0
      | c :: rest => if c == 'e' || c == 'E' then Numeral.readInt? rest else none
    exponent?.map fun exponent =>
      ⟨Numeral.value (whole ++ places), exponent - (places.length : Int)⟩

/-- The double nearest to a decimal.  Decimals far outside of the range of the
format are told by the place of their leading digit. -/
def ofScientific (negative : Bool) (d : Scientific) : Double :=
  let leading := d.exponent + ((Numeral.digits d.digits).length : Int)
  if d.digits = 0 ∨ leading < -400 then .round .double negative 0 1
  else if 400 < leading then .infinite negative
  else .round .double negative d.numerator d.denominator

/-- Reads a decimal or one of the words for infinity and for no number, with an
optional sign. -/
def read? (s : String) : Option Double :=
  let (negative, cs) := match s.toList with
    | '-' :: rest => (true, rest)
    | '+' :: rest => (false, rest)
    | cs => (false, cs)
  let word := cs.map Char.toLower
  if word == "inf".toList || word == "infinity".toList then some (.infinite negative)
  else if word == "nan".toList then some .nan
  else (readScientific? cs).map (ofScientific negative)

end Double

end ChatCommands
