import ChatCommands.Schema.Snapshot

/-!
# Snapshots as values

A snapshot is also read from a JSON value that holds it.  As in a text, a record is an
object or the list of its values in order.  A value whose links are wrong is told from
one that is no snapshot at all.
-/

namespace ChatCommands.Schema

/-- Why a value is no snapshot. -/
inductive ValueFault where
  | shape
  | links (fault : LinkFault)
deriving DecidableEq

/-- The value of a field with the given name and position. -/
def part? (name : String) (position : Nat) : Json → Option Json
  | .object fields => (Json.object fields).field? name
  | .array items => items[position]?
  | _ => none

/-- Whether a value is a record of at most the given number of fields in order. -/
def isRecord (length : Nat) : Json → Bool
  | .object _ => true
  | .array items => items.length ≤ length
  | _ => false

/-- A part that may be missing. -/
def partOr {α : Type} (default : α) (read : Json → Option α) : Option Json → Option α
  | none => some default
  | some v => read v

namespace Snapshot

/-- A number of a node. -/
def nodeId? : Json → Option Nat
  | .integer (.ofNat n) => some n
  | _ => none

/-- A truth value. -/
def flag? : Json → Option Bool
  | .bool b => some b
  | _ => none

/-- A kind by its name, which may also be the key of nothing. -/
def kind? : Json → Option NodeKind
  | .string name | .object [(name, .null)] => (kinds.find? (·.1 == name)).map (·.2)
  | _ => none

/-- The properties of a node. -/
def properties? : Json → Option Properties
  | .object fields => some (Dict.ofList fields)
  | _ => none

/-- The numbers of the children of a node. -/
def children? : Json → Option (List Nat)
  | .array items => items.mapM nodeId?
  | _ => none

/-- The number of the parent of a node, if it has one. -/
def parent? : Json → Option (Option Nat)
  | .null => some none
  | v => (nodeId? v).map some

/-- The node that a value holds. -/
def nodeOfJson? (v : Json) : Option Node := do
  guard (isRecord 7 v)
  return {
    kind := ← (part? "kind" 0 v).bind kind?
    name := ← (part? "name" 1 v).bind Json.string?
    description := ← (part? "description" 2 v).bind Json.string?
    properties := ← partOr Dict.empty properties? (part? "properties" 3 v)
    children := ← partOr [] children? (part? "children" 4 v)
    parent := ← partOr none parent? (part? "parent" 5 v)
    registered := ← partOr false flag? (part? "registered" 6 v) }

/-- The nodes of a tree and the number of its root, as a value holds them. -/
def partsOfJson? (v : Json) : Option (List Node × Nat) := do
  guard (isRecord 2 v)
  match ← part? "nodes" 0 v with
  | .array items => return (← items.mapM nodeOfJson?, ← (part? "root" 1 v).bind nodeId?)
  | _ => none

/-- The tree that a value holds. -/
def treeOfJson (v : Json) : Except ValueFault Tree :=
  match partsOfJson? v with
  | some (nodes, root) => (Tree.ofNodes nodes root).mapError .links
  | none => .error .shape

/-- The snapshot that a value holds.  An identifier of another form counts before the
tree is read, and a missing one afterwards. -/
def ofJson (v : Json) : Except ValueFault Snapshot := do
  let externalId := part? "external_id" 0 v
  if externalId.any (·.string?.isNone) then throw .shape
  let tree ← match part? "root" 1 v with
    | some root => treeOfJson root
    | none => throw .shape
  match externalId.bind Json.string? with
  | some externalId => if isRecord 2 v then return ⟨externalId, tree⟩ else throw .shape
  | none => throw .shape

end Snapshot

end ChatCommands.Schema
