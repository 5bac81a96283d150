import ChatCommands.Json.Printer
import ChatCommands.Json.Record
import ChatCommands.Schema.Tree

/-!
# Snapshots

A tree that the platform has confirmed, with the identifier that the platform
gave it, as it is kept in a file.  Reading checks that the root is a root and
that every link leads to a node.
-/

namespace ChatCommands.Schema

/-- What is wrong with the links of a tree. -/
inductive LinkFault where
  | rootOutside (root size : Nat)
  | rootOfKind (root : Nat) (kind : NodeKind)
  | missingNode (node link : Nat)
deriving DecidableEq

/-- The wording of a fault. -/
def LinkFault.message : LinkFault → String
  | rootOutside root size =>
    s!"root {Numeral.text root} is outside a tree of {Numeral.text size} nodes"
  | rootOfKind root kind => s!"node {Numeral.text root} is a {kind.title}, not a root"
  | missingNode node link =>
    s!"node {Numeral.text node} links to missing node {Numeral.text link}"

/-- The links of a node: its children and then its parent. -/
def Node.links (node : Node) : List Nat :=
  node.children ++ node.parent.toList

/-- The first link that leads out of a list of nodes. -/
def danglingLink? (nodes : List Node) : Option (Nat × Nat) :=
  nodes.zipIdx.findSome? fun (node, id) =>
    (node.links.find? fun link => nodes.length ≤ link).map (id, ·)

/-- The tree of some nodes, if its links are in order. -/
def Tree.ofNodes (nodes : List Node) (root : Nat) : Except LinkFault Tree :=
  if h : root < nodes.length then
    if nodes[root].kind ≠ .root then .error (.rootOfKind root nodes[root].kind)
    else
      match danglingLink? nodes with
      | some (node, link) => .error (.missingNode node link)
      | none => .ok ⟨nodes, root, h⟩
  else .error (.rootOutside root nodes.length)

/-- A tree as the platform last confirmed it. -/
structure Snapshot where
  externalId : String
  tree : Tree

namespace Snapshot

/-- The record of a node. -/
def nodeJson (node : Node) : Json :=
  .object
    [("kind", .string node.kind.savedName), ("name", .string node.name),
     ("description", .string node.description), ("properties", .object node.properties.entries),
     ("children", .array (node.children.map fun (id : Nat) => .integer id)),
     ("parent", node.parent.elim .null fun (id : Nat) => .integer id),
     ("registered", .bool node.registered)]

/-- The record of a tree. -/
def treeJson (t : Tree) : Json :=
  .object [("nodes", .array (t.nodes.map nodeJson)), ("root", .integer t.root)]

/-- The record of a snapshot. -/
def toJson (s : Snapshot) : Json :=
  .object [("external_id", .string s.externalId), ("root", treeJson s.tree)]

open Json (Scan Refusal)

/-! ## Reading -/

/-- The fields of a node that were read so far. -/
structure NodeFields where
  kind : Option NodeKind := none
  name : Option String := none
  description : Option String := none
  properties : Option Properties := none
  children : Option (List Nat) := none
  parent : Option (Option Nat) := none
  registered : Option Bool := none

/-- A field, or its name if it is missing. -/
def given {α : Type} (name : String) (field : Option α) : Except String α :=
  match field with
  | some a => .ok a
  | none => .error name

/-- The node of some fields, of which three must be there. -/
def NodeFields.node (fields : NodeFields) : Except String Node := do
  return {
    kind := ← given "kind" fields.kind
    name := ← given "name" fields.name
    description := ← given "description" fields.description
    properties := fields.properties.getD Dict.empty
    children := fields.children.getD []
    parent := fields.parent.join
    registered := fields.registered.getD false }

/-- The kinds by their names. -/
def kinds : List (String × NodeKind) :=
  NodeKind.all.map fun kind => (kind.savedName, kind)

/-- Reads a node. -/
def scanNode : Scan Node :=
  Scan.record "struct CommandNode"
    [⟨"kind", (·.kind.isSome), fun n => return { n with kind := ← Scan.oneOf kinds }⟩,
     ⟨"name", (·.name.isSome), fun n => return { n with name := ← Scan.text }⟩,
     ⟨"description", (·.description.isSome), fun n =>
       return { n with description := ← Scan.text }⟩,
     ⟨"properties", (·.properties.isSome), fun n =>
       return { n with properties := ← Scan.dict Scan.value }⟩,
     ⟨"children", (·.children.isSome), fun n =>
       return { n with children := ← Scan.list Scan.count }⟩,
     ⟨"parent", (·.parent.isSome), fun n =>
       return { n with parent := some (← Scan.orNothing Scan.count) }⟩,
     ⟨"registered", (·.registered.isSome), fun n => return { n with registered := ← Scan.flag }⟩]
    {} NodeFields.node

/-- The fields of a tree that were read so far. -/
structure TreeFields where
  nodes : Option (List Node) := none
  root : Option Nat := none

/-- The nodes and the root of some fields. -/
def TreeFields.parts (fields : TreeFields) : Except String (List Node × Nat) := do
  return (← given "nodes" fields.nodes, ← given "root" fields.root)

/-- Reads a tree and checks its links. -/
def scanTree : Scan Tree := do
  let (nodes, root) ← Scan.record "struct TreeRepr"
    [⟨"nodes", (·.nodes.isSome), fun t => return { t with nodes := ← Scan.list scanNode }⟩,
     ⟨"root", (·.root.isSome), fun t => return { t with root := ← Scan.count }⟩]
    {} TreeFields.parts
  match Tree.ofNodes nodes root with
  | .ok tree => return tree
  | .error fault => Scan.fail (.broken fault.message)

/-- The fields of a snapshot that were read so far. -/
structure Fields where
  externalId : Option String := none
  tree : Option Tree := none

/-- The snapshot of some fields. -/
def Fields.snapshot (fields : Fields) : Except String Snapshot := do
  return ⟨← given "external_id" fields.externalId, ← given "root" fields.tree⟩

/-- Reads a snapshot. -/
def scan : Scan Snapshot :=
  Scan.record "struct RegisteredSchema"
    [⟨"external_id", (·.externalId.isSome), fun s => return { s with externalId := ← Scan.text }⟩,
     ⟨"root", (·.tree.isSome), fun s => return { s with tree := ← scanTree }⟩]
    {} Fields.snapshot

/-- The snapshot that a text holds. -/
def read (s : String) : Except Refusal Snapshot :=
  scan.whole s

end Snapshot

end ChatCommands.Schema
