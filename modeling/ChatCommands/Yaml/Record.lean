import ChatCommands.Dict
import ChatCommands.Number.Bound
import ChatCommands.Yaml.Node

/-!
# Reading records from YAML

The meaning of values where a record expects a text, a number, a list or another
record.  A text may be written in any way, while numbers, truth values and
missing values must be plain.
-/

namespace ChatCommands.Yaml

/-! ## Numbers -/

/-- The bases that are told by the letter behind a leading zero. -/
def base? : Char → Option Nat
  | 'x' => some 16
  | 'o' => some 8
  | 'b' => some 2
  | _ => none

/-- Whether digits start with a zero that does not stand alone. -/
def hasLeadingZero : List Char → Bool
  | '0' :: c :: rest => (c :: rest).all Char.isDigit
  | _ => false

/-- A whole number without sign in any of the four bases. -/
def unsigned? (cs : List Char) : Option Nat :=
  match cs with
  | '0' :: c :: rest =>
    match base? c with
    | some base => Numeral.readIn? base rest
    | none => if hasLeadingZero cs then none else Numeral.readIn? 10 cs
  | _ => Numeral.readIn? 10 cs

/-- A whole number with an optional sign. -/
def integer? (cs : List Char) : Option Int :=
  match cs with
  | '+' :: rest => (unsigned? rest).map Int.ofNat
  | '-' :: rest => (unsigned? rest).map fun n => -(n : Int)
  | _ => (unsigned? cs).map Int.ofNat

/-- The words for infinity. -/
def infinityWords : List String := [".inf", ".Inf", ".INF"]

/-- The words for a missing number. -/
def missingWords : List String := [".nan", ".NaN", ".NAN"]

/-- A number with places, or one of the words for what is no finite number. -/
def float? (text : String) : Option Double :=
  let cs := text.toList
  let signed := cs.head?.any fun c => c == '+' || c == '-'
  let body := String.ofList (if signed then cs.drop 1 else cs)
  if missingWords.contains text then some .nan
  else if infinityWords.contains body then some (.infinite (cs.head? == some '-'))
  else if hasLeadingZero body.toList then none
  else (Double.read? text).filter (·.isFinite)

namespace Node

/-! ## Scalars -/

/-- A text. -/
def text? : Node → Option String
  | scalar _ text => some text
  | _ => none

/-- A plain scalar. -/
def plain? : Node → Option String
  | scalar true text => some text
  | _ => none

/-- Whether a value is missing. -/
def isMissing (n : Node) : Bool :=
  n.plain?.any ["", "~", "null", "Null", "NULL"].contains

/-- A value that may be missing. -/
def optional? {α : Type} (read? : Node → Option α) (n : Node) : Option (Option α) :=
  if n.isMissing then some none else (read? n).map some

/-- A truth value. -/
def bool? (n : Node) : Option Bool :=
  n.plain?.bind fun text =>
    if ["true", "True", "TRUE"].contains text then some true
    else if ["false", "False", "FALSE"].contains text then some false
    else none

/-- A whole number of 64 bits without sign. -/
def count? (n : Node) : Option Nat :=
  n.plain?.bind fun text =>
    let digits := match text.toList with
      | '+' :: rest => rest
      | cs => cs
    (unsigned? digits).filter (· ≤ Numeral.max64)

/-- A limit.  Whole numbers that are too great for a limit of integers become
numbers with places if a word of 64 bits holds them, and are refused if not. -/
def bound? (n : Node) : Option Bound :=
  n.plain?.bind fun text =>
    match integer? text.toList with
    | some k =>
      match SizedInt.of? .w64 k with
      | some n => some (.integer n)
      | none =>
        if 0 ≤ k ∧ k ≤ Numeral.max64 then some (.float (.ofInt .double k))
        else if Numeral.minInt128 ≤ k ∧ k ≤ Numeral.max128 then none
        else (float? text).map .float
    | none => (float? text).map .float

/-! ## Collections -/

/-- The items of a sequence, of which there are none where nothing is written. -/
def items? : Node → Option (List Node)
  | sequence items => some items
  | scalar true "" => some []
  | _ => none

/-- The entries of a mapping, of which there are none where nothing is written. -/
def entries? : Node → Option (List (Node × Node))
  | mapping entries => some entries
  | scalar true "" => some []
  | _ => none

/-- A list. -/
def list? {α : Type} (read? : Node → Option α) (n : Node) : Option (List α) :=
  n.items?.bind (·.mapM read?)

/-- A dictionary, in which the last value of a key counts. -/
def dict? {α : Type} (read? : Node → Option α) (n : Node) : Option (Dict α) := do
  let entries ← (← n.entries?).mapM fun (key, value) => do
    return (← key.text?, ← read? value)
  return Dict.ofList entries

/-- The fields of a record, which all have one of the given names and different
ones. -/
def fields? (names : List String) (n : Node) : Option (List (String × Node)) := do
  let fields ← (← n.entries?).mapM fun (key, value) => key.text?.map (·, value)
  let keys := fields.map (·.1)
  if keys.all names.contains && keys.eraseDups.length == keys.length then return fields else none

end Node

/-- A field that must be there. -/
def required? {α : Type} (fields : List (String × Node)) (name : String)
    (read? : Node → Option α) : Option α :=
  (fields.find? (·.1 == name)).bind fun field => read? field.2

/-- A field that has a default. -/
def defaulted? {α : Type} (fields : List (String × Node)) (name : String) (default : α)
    (read? : Node → Option α) : Option α :=
  match fields.find? (·.1 == name) with
  | some field => read? field.2
  | none => some default

end ChatCommands.Yaml
