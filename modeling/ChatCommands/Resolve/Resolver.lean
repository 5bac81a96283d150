import ChatCommands.Chat.Directory
import ChatCommands.Param.Basic
import ChatCommands.Resolve.Supply
import ChatCommands.Value

/-!
# Resolvers

A resolver turns the input of one parameter into a value.  Resolvers are kept in
a table under the types of parameters; a type that names a declared enumeration
goes to the resolver of all enumerations when it has none of its own.
-/

namespace ChatCommands

/-- A declared enumeration. -/
structure Enumeration where
  name : String
  members : List String
deriving DecidableEq

/-- Enumerations under their names in lowercase. -/
abbrev Enumerations := Dict Enumeration

namespace Enumerations

/-- Declares an enumeration, replacing one whose name differs only in case. -/
def declare (enums : Enumerations) (name : String) (members : List String) : Enumerations :=
  enums.insert (Text.lower name) ⟨name, members⟩

/-- The enumeration of a name in any case. -/
def find? (enums : Enumerations) (name : String) : Option Enumeration :=
  enums.get? (Text.lower name)

end Enumerations

/-- Where the value of a parameter comes from. -/
inductive Origin where
  /-- From the invocation alone. -/
  | issuer
  /-- From the invocation unless the parameter is flagged `other`. -/
  | issuerUnlessOther
  /-- From input. -/
  | input
deriving DecidableEq

/-- What a resolver may look at. -/
structure Slot where
  param : Param
  invocation : Invocation
  directory : Directory
  enums : Enumerations
  /-- Whether the parameter is the last of its command that takes input. -/
  isLast : Bool

/-- The resolver of a type. -/
structure Resolver where
  origin : Origin
  /-- Whether the resolver runs for an optional parameter without input. -/
  acceptsAbsent : Bool
  run : Slot → Supply → Except CommandError Value × Supply

namespace Resolver

/-- Whether a parameter gets its value from the invocation alone. -/
def isIssuerOnly (r : Resolver) (p : Param) : Bool :=
  match r.origin with
  | .issuer => true
  | .input => false
  | .issuerUnlessOther => !p.hasFlag "other"

/-- A resolver that is asked for optional parameters without input only if it
could settle them from the invocation. -/
def ofOrigin (origin : Origin)
    (run : Slot → Supply → Except CommandError Value × Supply) : Resolver :=
  ⟨origin, origin == .issuerUnlessOther, run⟩

end Resolver

/-- Why a resolver has no value. -/
inductive Refusal where
  | argument (fault : ArgumentFault)
  | internal (fault : InternalFault)

namespace Refusal

/-- The error of a refusal at the present place of the input. -/
def toError (supply : Supply) (parameter : String) : Refusal → CommandError
  | argument fault => supply.refuse parameter fault
  | internal fault => .internal fault

end Refusal

namespace Slot

/-- The outcome of a resolver that judged what it took from a supply. -/
def settle (slot : Slot) (supply : Supply) (result : Except Refusal Value) :
    Except CommandError Value × Supply :=
  (result.mapError (Refusal.toError supply slot.param.name), supply)

/-- Resolves one piece; without input the value is `missing`. -/
def withPiece (slot : Slot) (supply : Supply) (missing : Value)
    (judge : Piece → Except Refusal Value) : Except CommandError Value × Supply :=
  match supply.pop slot.param.name with
  | (none, supply) => (.ok missing, supply)
  | (some piece, supply) => slot.settle supply (judge piece)

/-- Resolves all pieces at once. -/
def withRest (slot : Slot) (supply : Supply) (judge : List Piece → Except Refusal Value) :
    Except CommandError Value × Supply :=
  let (pieces, supply) := supply.popRest slot.param.name
  slot.settle supply (judge pieces)

end Slot

/-- Resolvers under types, and the declared enumerations. -/
structure ResolverTable where
  entries : List (ParamType × Resolver)
  enums : Enumerations

namespace ResolverTable

/-- The table without entries. -/
def empty : ResolverTable := ⟨[], Dict.empty⟩

/-- The resolver registered for exactly a type. -/
def own? (t : ResolverTable) (type : ParamType) : Option Resolver :=
  (t.entries.find? (·.1 == type)).map (·.2)

/-- Registers a resolver, replacing one for the same type. -/
def register (t : ResolverTable) (type : ParamType) (resolver : Resolver) : ResolverTable :=
  { t with entries := (type, resolver) :: t.entries.filter (·.1 != type) }

/-- Declares an enumeration. -/
def declareEnum (t : ResolverTable) (name : String) (members : List String) : ResolverTable :=
  { t with enums := t.enums.declare name members }

/-- The resolver of a type: the one registered for it, or that of all
enumerations if the type names one. -/
def find? (t : ResolverTable) (type : ParamType) : Option Resolver :=
  (t.own? type).or <|
    match type with
    | .named name => if (t.enums.find? name).isSome then t.own? .anyEnum else none
    | _ => none

/-- The members of an enumeration. -/
def members? (t : ResolverTable) (name : String) : Option (List String) :=
  (t.enums.find? name).map (·.members)

/-- Whether a parameter is known to get its value from the invocation alone. -/
def isIssuerOnly (t : ResolverTable) (p : Param) : Bool :=
  match t.find? p.type with
  | some resolver => resolver.isIssuerOnly p
  | none => false

end ResolverTable

end ChatCommands
