import ChatCommands.Resolve.Resolver
import ChatCommands.Schema.Tree

/-!
# What is published about a parameter

The properties under which the platform shows a parameter: its option type,
whether it is required, the choices on offer and the limits of its values.
-/

namespace ChatCommands.Schema

/-- The value of a choice as the platform sends it back: a number where the
option holds numbers and the text is one. -/
def choiceValue (numeric : Bool) (value : String) : Json :=
  if numeric then
    match SizedInt.read? .w64 value.toList with
    | some n => .integer n.val
    | none => (Double.read? value).elim (.string value) Json.ofDouble
  else .string value

/-- The choices on offer: the declared ones, or the members of the enumeration
that the type names. -/
def offeredChoices (table : ResolverTable) (p : Param) : List Choice :=
  if p.choices.isEmpty then
    match p.type with
    | .named name => ((table.members? name).getD []).map fun m => ⟨m, m⟩
    | _ => []
  else p.choices

/-- A property of the given key, if there is a value for it. -/
def property (key : String) (value : Option Json) : List (String × Json) :=
  value.toList.map (key, ·)

/-- The choices on offer, if there are any. -/
def choicesValue (table : ResolverTable) (p : Param) : Option Json :=
  match offeredChoices table p with
  | [] => none
  | choices =>
    some <| .array <| choices.map fun choice =>
      .object [("name", .string choice.label),
        ("value", choiceValue p.type.optionType.isNumeric choice.value)]

/-- A limit of integers, brought into the range of a 64-bit word. -/
def integerLimit (n : Int) : Json :=
  .integer (Numeral.clamp Numeral.minInt64 Numeral.maxInt64 n)

/-- The least number allowed.  Limits of integers are rounded to the inside. -/
def leastValue (p : Param) : Option Json :=
  match p.type.optionType with
  | .long => p.minBound.map fun b => integerLimit b.ceil
  | .decimal => p.minBound.map fun b => .ofDouble b.toDouble
  | _ => none

/-- The greatest number allowed.  Limits of integers are rounded to the inside. -/
def greatestValue (p : Param) : Option Json :=
  match p.type.optionType with
  | .long => p.maxBound.map fun b => integerLimit b.floor
  | .decimal => p.maxBound.map fun b => .ofDouble b.toDouble
  | _ => none

/-- A limit of the length of a text. -/
def lengthLimit (p : Param) (limit : Option Nat) : Option Json :=
  match p.type.optionType with
  | .string => limit.map fun n => .integer n
  | _ => none

/-- The codes of the known channel kinds that the flag `kinds` lists. -/
def channelTypes (p : Param) : Option Json :=
  match ((p.flag "kinds").map ChannelKind.readList).getD [] with
  | [] => none
  | kinds => some (.array (kinds.map fun kind => .integer kind.code))

/-- Everything that is published about a parameter besides its name and its
description. -/
def parameterProperties (table : ResolverTable) (p : Param) : Properties :=
  Dict.ofList <|
    [("type", .string p.type.optionType.name), ("required", .bool p.requiresInput)] ++
    property "choices" (choicesValue table p) ++
    property "min_value" (leastValue p) ++
    property "max_value" (greatestValue p) ++
    property "min_length" (lengthLimit p p.minLength) ++
    property "max_length" (lengthLimit p p.maxLength) ++
    property "channel_types" (channelTypes p) ++
    property "autocomplete" (if p.hasFlag "autocomplete" then some (.bool true) else none)

end ChatCommands.Schema
