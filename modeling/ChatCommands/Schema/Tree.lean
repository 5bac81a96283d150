import ChatCommands.Diagnostic.Violation
import ChatCommands.Json.Basic
import ChatCommands.Text.Case

/-!
# Command trees

The platform shows commands as trees: a root, groups of subcommands,
subcommands and parameters.  The nodes of a tree are numbered, and each names
its children and its parent by number.  Walks along the links take as many steps
as there are nodes at most, so that they end on any links.
-/

namespace ChatCommands.Schema

/-- The kinds of nodes. -/
inductive NodeKind where
  | root
  | group
  | subcommand
  | parameter
deriving DecidableEq

namespace NodeKind

/-- The name of a kind in published schemas. -/
def name : NodeKind → String
  | root => "ROOT"
  | group => "GROUP"
  | subcommand => "SUBCOMMAND"
  | parameter => "PARAMETER"

/-- The name of a kind in snapshots. -/
def savedName : NodeKind → String
  | root => "ROOT"
  | group => "SUBCOMMAND_GROUP"
  | subcommand => "SUBCOMMAND"
  | parameter => "PARAMETER"

/-- The name of a kind in messages. -/
def title : NodeKind → String
  | root => "Root"
  | group => "SubcommandGroup"
  | subcommand => "Subcommand"
  | parameter => "Parameter"

/-- Every kind. -/
def all : List NodeKind :=
  [root, group, subcommand, parameter]

end NodeKind

/-- Properties of a node. -/
abbrev Properties := Dict Json

/-- Equality of properties: the same keys with equal values. -/
def Properties.same (a b : Properties) : Bool :=
  Json.sameFields a.entries b.entries

/-- A node of a command tree. -/
structure Node where
  kind : NodeKind
  name : String
  description : String
  properties : Properties := Dict.empty
  children : List Nat := []
  parent : Option Nat := none
  /-- Whether the platform has confirmed the tree of which the node is the
  root. -/
  registered : Bool := false

/-- Whether two nodes say the same, apart from their links. -/
def Node.sameFields (a b : Node) : Bool :=
  a.kind == b.kind && a.name == b.name && a.description == b.description &&
    a.properties.same b.properties

/-- Numbered nodes, one of which is the root. -/
structure Tree where
  nodes : List Node
  root : Nat
  root_lt : root < nodes.length

namespace Tree

/-- The tree of a root alone. -/
def new (name description : String) : Tree :=
  ⟨[{ kind := .root, name, description }], 0, by simp⟩

/-- The node of a number. -/
def node? (t : Tree) (id : Nat) : Option Node :=
  t.nodes[id]?

/-- The root of a tree. -/
def rootNode (t : Tree) : Node :=
  t.nodes.get ⟨t.root, t.root_lt⟩

/-- The name of the root. -/
def name (t : Tree) : String :=
  t.rootNode.name

/-- Number of nodes. -/
def size (t : Tree) : Nat :=
  t.nodes.length

/-- The children of a node, with their numbers. -/
def childrenOf (t : Tree) (id : Nat) : List (Nat × Node) :=
  match t.node? id with
  | some node => node.children.filterMap fun child => (t.node? child).map fun n => (child, n)
  | none => []

/-- The child of a node that has a name, in any case of ASCII letters. -/
def childNamed? (t : Tree) (id : Nat) (name : String) : Option (Nat × Node) :=
  (t.childrenOf id).find? fun child => Text.asciiEq child.2.name name

/-- Changes the node of a number, if there is one. -/
def modify (t : Tree) (id : Nat) (change : Node → Node) : Tree :=
  ⟨t.nodes.modify id change, t.root, by simpa using t.root_lt⟩

/-- Adds a child behind the other children of a node.  Siblings have different
names. -/
def addChild (t : Tree) (parent : Nat) (kind : NodeKind) (name description : String) :
    Except Violation (Nat × Tree) :=
  if (t.childNamed? parent name).isSome then .error (.duplicateSibling name)
  else if parent < t.nodes.length then
    let id := t.nodes.length
    let linked := t.nodes.modify parent fun n => { n with children := n.children ++ [id] }
    .ok (id, ⟨linked ++ [{ kind, name, description, parent := some parent }], t.root, by
      simpa [linked] using Nat.lt_succ_of_lt t.root_lt⟩)
  else .error (.invalidDeclaration (.missingParent parent))

/-- Sets a property of a node, if there is such a node. -/
def setProperty (t : Tree) (id : Nat) (key : String) (value : Json) : Tree :=
  t.modify id fun n => { n with properties := n.properties.insert key value }

/-- Marks the root as confirmed by the platform. -/
def markRegistered (t : Tree) : Tree :=
  t.modify t.root fun n => { n with registered := true }

/-- Whether the platform has confirmed the tree. -/
def isRegistered (t : Tree) : Bool :=
  t.rootNode.registered

/-- The names on the way up from a node. -/
def namesUp (t : Tree) : Nat → Option Nat → List String
  | 0, _ => []
  | _, none => []
  | fuel + 1, some id =>
    match t.node? id with
    | some node => node.name :: namesUp t fuel node.parent
    | none => []

/-- The names on the way down to a node, which is the last of them. -/
def pathOf (t : Tree) (id : Nat) : List String :=
  (t.namesUp t.size (some id)).reverse

/-- The node that is reached by following names down from another. -/
def findFrom (t : Tree) (id : Nat) : List String → Option Nat
  | [] => some id
  | name :: rest => (t.childNamed? id name).bind fun child => t.findFrom child.1 rest

/-- The node that is reached by following names down from the root. -/
def find? (t : Tree) (path : List String) : Option Nat :=
  t.findFrom t.root path

/-- Equality of what hangs below two nodes. -/
def sameBelow (a b : Tree) : Nat → Nat → Nat → Bool
  | 0, _, _ => true
  | fuel + 1, i, j =>
    match a.node? i, b.node? j with
    | some x, some y =>
      x.sameFields y && x.children.length == y.children.length &&
        (x.children.zip y.children).all fun pair => sameBelow a b fuel pair.1 pair.2
    | none, none => true
    | _, _ => false

/-- Equality of trees: the nodes say the same and have the same children in the
same order.  Numbers and confirmation make no difference. -/
def same (a b : Tree) : Bool :=
  a.sameBelow b (a.size + 1) a.root b.root

end Tree

end ChatCommands.Schema
