import ChatCommands.Json.Printer
import ChatCommands.Schema.Tree

/-!
# Payloads

What the platform is told about a tree: the nodes nested into one another, with
the option types of parameters apart from the other properties.
-/

namespace ChatCommands.Schema

/-- A node with everything below it, as the platform sees it. -/
inductive Payload where
  | node (kind : NodeKind) (name description : String) (optionType : Option String)
      (options : List Payload) (constraints : Properties)

namespace Payload

/-- The kind of the outermost node. -/
def kind : Payload → NodeKind
  | node kind _ _ _ _ _ => kind

/-- The name of the outermost node. -/
def name : Payload → String
  | node _ name _ _ _ _ => name

/-- The description of the outermost node. -/
def description : Payload → String
  | node _ _ description _ _ _ => description

/-- The option type of a parameter. -/
def optionType : Payload → Option String
  | node _ _ _ optionType _ _ => optionType

/-- What hangs directly below the outermost node. -/
def options : Payload → List Payload
  | node _ _ _ _ options _ => options

/-- The properties of the outermost node. -/
def constraints : Payload → Properties
  | node _ _ _ _ _ constraints => constraints

mutual

/-- Equality of payloads. -/
def same : Payload → Payload → Bool
  | node j m d s os p, node k n e t qs q =>
    j == k && m == n && d == e && s == t && sameAll os qs && p.same q

/-- Equality of payloads, pair by pair. -/
def sameAll : List Payload → List Payload → Bool
  | [], [] => true
  | a :: as, b :: bs => same a b && sameAll as bs
  | _, _ => false

end

mutual

/-- The record of a payload.  Parts that are missing or empty are left out. -/
def toJson : Payload → Json
  | node kind name description optionType options constraints =>
    .object <|
      [("type", .string kind.name), ("name", .string name), ("description", .string description)] ++
      optionType.toList.map (fun type => ("option_type", .string type)) ++
      (if options.isEmpty then [] else [("options", .array (toJsonAll options))]) ++
      (if constraints.entries.isEmpty then [] else [("constraints", .object constraints.entries)])

/-- The records of payloads. -/
def toJsonAll : List Payload → List Json
  | [] => []
  | p :: ps => toJson p :: toJsonAll ps

end

/-- The record of a payload with one field a line. -/
def pretty (p : Payload) : String :=
  p.toJson.pretty

end Payload

/-- The payload of a node apart from what hangs below it.  The property `type`
of a parameter becomes its option type. -/
def Node.payload (node : Node) (options : List Payload) : Payload :=
  match node.kind with
  | .parameter =>
    .node node.kind node.name node.description
      ((node.properties.get? "type").bind Json.string?) options (node.properties.erase "type")
  | _ => .node node.kind node.name node.description none options node.properties

namespace Tree

/-- The payload of a node with what hangs below it; a missing node is an empty
root. -/
def payloadFrom (t : Tree) : Nat → Nat → Payload
  | 0, _ => .node .root "" "" none [] Dict.empty
  | fuel + 1, id =>
    match t.node? id with
    | some node => node.payload ((t.childrenOf id).map fun child => payloadFrom t fuel child.1)
    | none => .node .root "" "" none [] Dict.empty

/-- The payload of a tree. -/
def payload (t : Tree) : Payload :=
  t.payloadFrom (t.size + 1) t.root

end Tree

end ChatCommands.Schema
