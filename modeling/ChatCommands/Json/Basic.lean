import ChatCommands.Dict
import ChatCommands.Number.FloatText

/-!
# JSON values

Values with the three kinds of numbers that data files tell apart: integers,
and finite floating-point numbers.  Objects that are read or held as properties
list their fields in increasing order of the names; a record that is written
lists them in the order of its own.
-/

namespace ChatCommands

/-- A JSON value. -/
inductive Json where
  | null
  | bool (b : Bool)
  | integer (n : Int)
  | float (x : FiniteFloat .double)
  | string (s : String)
  | array (items : List Json)
  | object (fields : List (String × Json))

namespace Json

mutual

/-- Equality of values.  Floating-point numbers are compared as numbers, and an
integer is never equal to one of them. -/
def same : Json → Json → Bool
  | null, null => true
  | bool a, bool b => a == b
  | integer a, integer b => a == b
  | float a, float b => a.numericEq b
  | string a, string b => a == b
  | array a, array b => sameItems a b
  | object a, object b => sameFields a b
  | _, _ => false

/-- Equality of items, pair by pair. -/
def sameItems : List Json → List Json → Bool
  | [], [] => true
  | a :: as, b :: bs => same a b && sameItems as bs
  | _, _ => false

/-- Equality of fields, pair by pair. -/
def sameFields : List (String × Json) → List (String × Json) → Bool
  | [], [] => true
  | (j, a) :: as, (k, b) :: bs => j == k && same a b && sameFields as bs
  | _, _ => false

end

/-- The object with the given fields, of which the last one of a name counts. -/
def ofFields (fields : List (String × Json)) : Json :=
  .object (Dict.ofList fields).entries

/-- The value of a field. -/
def field? (key : String) : Json → Option Json
  | object fields => (fields.find? (·.1 == key)).map (·.2)
  | _ => none

/-- A double as a value; there is none for infinities. -/
def ofDouble : Double → Json
  | .finite x => float x
  | _ => null

/-- The text of a string value. -/
def string? : Json → Option String
  | string s => some s
  | _ => none

end Json

end ChatCommands
