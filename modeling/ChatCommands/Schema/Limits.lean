import ChatCommands.Schema.Tree
import ChatCommands.Text.Blank

/-!
# Limits of the platform

How long names and descriptions may be, and how many words a path, how many
children a node and how many choices a parameter may have.
-/

namespace ChatCommands.Schema

namespace Limits

/-- The greatest number of characters of a name. -/
def nameLength : Nat := 32

/-- The greatest number of characters of a description. -/
def descriptionLength : Nat := 100

/-- The greatest number of children of a node. -/
def children : Nat := 25

/-- The greatest number of choices that a parameter declares. -/
def choices : Nat := 25

/-- The greatest number of words of a path. -/
def pathWords : Nat := 3

end Limits

/-- A name has at least one character and not too many. -/
def checkName (name : String) : Except Violation Unit :=
  if name.length = 0 ∨ Limits.nameLength < name.length then
    .error (.nameLength name name.length)
  else .ok ()

/-- The description of something of the given name has at least one character
and not too many. -/
def checkDescription (name description : String) : Except Violation Unit :=
  if description.length = 0 ∨ Limits.descriptionLength < description.length then
    .error (.descriptionLength name description.length)
  else .ok ()

/-- A parameter declares not too many choices. -/
def checkChoices (parameter : String) (count : Nat) : Except Violation Unit :=
  if Limits.choices < count then .error (.tooManyChoices parameter count Limits.choices)
  else .ok ()

namespace Tree

/-- The path of a node with spaces between its names. -/
def pathText (t : Tree) (id : Nat) : String :=
  Text.join " " (t.pathOf id)

/-- A node has a proper name and description and not too many children, and a
group has at least one. -/
def checkNode (t : Tree) (id : Nat) (node : Node) : Except Violation Unit := do
  checkName node.name
  checkDescription node.name node.description
  if Limits.children < node.children.length then
    throw (.tooManyChildren (t.pathText id) node.children.length Limits.children)
  if node.kind = .group ∧ node.children = [] then
    throw (.emptyGroup (t.pathText id))

/-- Every node keeps the limits; the first one that does not is reported. -/
def check (t : Tree) : Except Violation Unit :=
  t.nodes.zipIdx.forM fun (node, id) => t.checkNode id node

end Tree

end ChatCommands.Schema
