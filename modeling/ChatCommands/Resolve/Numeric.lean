import ChatCommands.Resolve.Resolver

/-!
# Numbers from input

Integers are judged as integers and never rounded; the bounds of a parameter
tighten the range of its type and never widen it.  Numbers with places have to
be finite.
-/

namespace ChatCommands.Resolve

/-- The width of the integers of a type. -/
def widthOf : ParamType → Width
  | .integer width => width
  | _ => .w64

/-- The least integer that a parameter accepts. -/
def leastInteger (p : Param) : Int :=
  match p.minBound with
  | some bound => max bound.ceil (widthOf p.type).low
  | none => (widthOf p.type).low

/-- The greatest integer that a parameter accepts. -/
def greatestInteger (p : Param) : Int :=
  match p.maxBound with
  | some bound => min bound.floor (widthOf p.type).high
  | none => (widthOf p.type).high

/-- The integer that a text denotes, within 128 bits. -/
def integerOfText (s : String) : Except Refusal Int :=
  match Numeral.readSigned? Numeral.minInt128 Numeral.maxInt128 (Text.trim s).toList with
  | some n => .ok n
  | none => .error (.argument (.notANumber s))

/-- The integer that a piece of input denotes. -/
def integerOf (piece : Piece) : Except Refusal Int :=
  match piece with
  | .typed (.integer n) => .ok n.val
  | .typed (.number (.finite x)) =>
    if x.isWhole then .ok (Numeral.clamp Numeral.minInt128 Numeral.maxInt128 x.floor)
    else integerOfText piece.text
  | _ => integerOfText piece.text

/-- Judges a piece of input for an integer parameter. -/
def judgeInteger (p : Param) (piece : Piece) : Except Refusal Value := do
  let n ← integerOf piece
  if n < leastInteger p then
    throw (.argument (.belowMinimum piece.text (Numeral.intText (leastInteger p))))
  if greatestInteger p < n then
    throw (.argument (.aboveMaximum piece.text (Numeral.intText (greatestInteger p))))
  match SizedInt.of? (widthOf p.type) n with
  | some n => return .integer (widthOf p.type) n
  | none => throw (.internal (.escapedRange n p.type.keyword))

/-- The greatest number with places that a type holds, with a sign. -/
def extremeDouble (type : ParamType) (negative : Bool) : Double :=
  match type with
  | .float32 => (BinaryFloat.extreme .single negative).convert .double
  | _ => .extreme .double negative

/-- The least double that a parameter accepts. -/
def leastDouble (p : Param) : Double :=
  match p.minBound with
  | some bound => bound.toDouble.larger (extremeDouble p.type true)
  | none => extremeDouble p.type true

/-- The greatest double that a parameter accepts. -/
def greatestDouble (p : Param) : Double :=
  match p.maxBound with
  | some bound => bound.toDouble.smaller (extremeDouble p.type false)
  | none => extremeDouble p.type false

/-- The double that a piece of input denotes. -/
def doubleOf (piece : Piece) : Option Double :=
  match piece with
  | .typed (.number x) => some x
  | .typed (.integer n) => some (.ofInt .double n.val)
  | _ => Double.read? (Text.trim piece.text)

/-- Judges a piece of input for a parameter of binary numbers. -/
def judgeFloat (p : Param) (piece : Piece) : Except Refusal Value :=
  match doubleOf piece with
  | some (.finite x) => do
    let x : Double := .finite x
    if x.lt (leastDouble p) then
      throw (.argument (.belowMinimum piece.text (leastDouble p).text))
    if (greatestDouble p).lt x then
      throw (.argument (.aboveMaximum piece.text (greatestDouble p).text))
    match p.type with
    | .float32 => return .float32 (x.convert .single)
    | _ => return .float64 x
  | _ => .error (.argument (.notANumber piece.text))

/-- The decimal that a piece of input denotes. -/
def decimalOf (piece : Piece) : Option Decimal :=
  match piece with
  | .typed (.integer n) => Decimal.ofInt? n.val
  | .typed (.number x) => Decimal.ofDouble? x
  | _ => Decimal.read? (Text.trim piece.text)

/-- Judges a piece of input for a decimal parameter.  A bound that no decimal
stands for is not enforced. -/
def judgeDecimal (p : Param) (piece : Piece) : Except Refusal Value :=
  match decimalOf piece with
  | none => .error (.argument (.notANumber piece.text))
  | some d => do
    if let some least := p.minBound.bind (·.toDecimal?) then
      if d.lt least then
        throw (.argument (.belowMinimum piece.text least.normalize.text))
    if let some greatest := p.maxBound.bind (·.toDecimal?) then
      if greatest.lt d then
        throw (.argument (.aboveMaximum piece.text greatest.normalize.text))
    return .decimal d

/-- Takes one piece and judges it as an integer. -/
def integer (slot : Slot) (supply : Supply) : Except CommandError Value × Supply :=
  slot.withPiece supply .absent (judgeInteger slot.param)

/-- Takes one piece and judges it as a binary number. -/
def float (slot : Slot) (supply : Supply) : Except CommandError Value × Supply :=
  slot.withPiece supply .absent (judgeFloat slot.param)

/-- Takes one piece and judges it as a decimal. -/
def decimal (slot : Slot) (supply : Supply) : Except CommandError Value × Supply :=
  slot.withPiece supply .absent (judgeDecimal slot.param)

end ChatCommands.Resolve
