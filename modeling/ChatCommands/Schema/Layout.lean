import ChatCommands.Command.Basic
import ChatCommands.Resolve.Condition
import ChatCommands.Schema.Limits
import ChatCommands.Schema.Publication

/-!
# Laying commands out as trees

The commands of one root and the groups declared for it become one tree.  A path
of two words becomes a subcommand and a path of three words a subcommand of a
group; a command whose path is the root alone puts its parameters on the root,
unless something else hangs there.  Of several commands with one path the first
is shown.
-/

namespace ChatCommands.Schema

/-- What commands are checked against. -/
structure Vocabulary where
  resolvers : ResolverTable
  conditions : ConditionTable

/-- What the parameters before a parameter rule out. -/
structure Passed where
  /-- A parameter that can do without input came before. -/
  optional : Bool := false
  /-- A parameter that takes all input came before. -/
  variadic : Option String := none

/-- Adds a parameter that takes input to those before it: nothing comes behind a
variadic one, and nothing that requires input behind one that does not. -/
def Passed.add (passed : Passed) (p : Param) : Except Violation Passed :=
  match passed.variadic with
  | some name => .error (.variadicNotTrailing name)
  | none =>
    if p.requiresInput && passed.optional then .error (.requiredAfterOptional p.name)
    else
      .ok {
        optional := passed.optional || !p.requiresInput
        variadic := if p.type.isVariadic then some p.name else none }

namespace Vocabulary

variable (v : Vocabulary)

/-- The type of a parameter has a resolver, its conditions are registered and it
has not too many choices. -/
def checkParam (p : Param) : Except Violation Resolver :=
  match v.resolvers.find? p.type with
  | none => .error (.unknownType p.name p.type.keyword)
  | some resolver =>
    match p.conditions.find? fun use => (v.conditions.find? use.name).isNone with
    | some use => .error (.unknownCondition p.name use.name)
    | none => (checkChoices p.name p.choices.length).map fun _ => resolver

/-- Checks parameters behind others. -/
def checkParams : Passed → List Param → Except Violation Unit
  | _, [] => .ok ()
  | passed, p :: rest => do
    let resolver ← v.checkParam p
    if resolver.isIssuerOnly p then checkParams passed rest
    else checkParams (← passed.add p) rest

/-- Checks a command apart from others. -/
def checkCommand (c : CommandInfo) : Except Violation Unit := do
  if Limits.pathWords < c.path.length then throw (.pathTooDeep c.qualifiedName)
  c.path.forM checkName
  v.checkParams {} c.params

/-- Whether a parameter is shown: it has a resolver and takes input. -/
def isShown (p : Param) : Bool :=
  match v.resolvers.find? p.type with
  | some resolver => !resolver.isIssuerOnly p
  | none => false

/-- Adds a parameter below a node. -/
def addParam (parent : Nat) (t : Tree) (p : Param) : Except Violation Tree := do
  let (id, t) ← t.addChild parent .parameter p.name p.shownDescription
  return t.modify id fun node => { node with properties := parameterProperties v.resolvers p }

/-- Adds the parameters of a command that are shown below a node. -/
def addParams (t : Tree) (parent : Nat) (c : CommandInfo) : Except Violation Tree :=
  (c.params.filter v.isShown).foldlM (v.addParam parent) t

/-- Adds a command with its parameters below a node. -/
def addSubcommand (t : Tree) (parent : Nat) (name : String) (c : CommandInfo) :
    Except Violation Tree :=
  match t.childNamed? parent name with
  | some (_, { kind := .group, .. }) =>
    .error (.invalidDeclaration (.subcommandAndGroup c.qualifiedName))
  | _ => do
    let (id, t) ← t.addChild parent .subcommand name c.description
    v.addParams t id c

end Vocabulary

/-- The groups declared below a root. -/
def groupsOf (root : String) (groups : List Group) : List Group :=
  groups.filter fun g => g.path.length == 2 && g.path.head? == some root

/-- The word of a group behind its root. -/
def groupName (g : Group) : String :=
  (g.path[1]?).getD ""

/-- The description of a group: that of its first declaration, if it says
something. -/
def groupDescription (declared : List Group) (name : String) : String :=
  let given := (declared.find? fun g => Text.asciiEq (groupName g) name).map (·.description)
  (given.filter (· != "")).getD (name ++ " commands")

/-- The group of a name below the root, which is added if it is missing. -/
def ensureGroup (declared : List Group) (t : Tree) (name : String) :
    Except Violation (Nat × Tree) :=
  match t.childNamed? t.root name with
  | some (id, { kind := .group, .. }) => .ok (id, t)
  | some _ => .error (.invalidDeclaration (.subcommandAndGroup (t.name ++ " " ++ name)))
  | none => t.addChild t.root .group name (groupDescription declared name)

/-- Adds a declared group that no command has brought in. -/
def placeGroup (declared : List Group) (t : Tree) (g : Group) : Except Violation Tree :=
  if (t.childNamed? t.root (groupName g)).isSome then .ok t
  else (ensureGroup declared t (groupName g)).map (·.2)

/-- The description of a root: that of its declared scope, or that of the command
whose path it is. -/
def rootDescription (root : String) (members : List CommandInfo) (groups : List Group) : String :=
  let scope := (groups.find? fun g => g.isRoot && g.path == [root]).map (·.description)
  let bare := (members.find? fun c => c.sub.isEmpty).map (·.description)
  (scope.or bare).getD (root ++ " commands")

/-- The first command of each path. -/
def firstOfEachPath (members : List CommandInfo) : List CommandInfo :=
  members.eraseDupsBy fun a b => a.path == b.path

namespace Vocabulary

variable (v : Vocabulary)

/-- Adds the first command of a path to the tree of its root. -/
def place (declared : List Group) (bareIsShown : Bool) (t : Tree) (c : CommandInfo) :
    Except Violation Tree :=
  match c.sub with
  | [] => if bareIsShown then v.addParams t t.root c else .ok t
  | [name] => v.addSubcommand t t.root name c
  | [group, name] => do
    let (id, t) ← ensureGroup declared t group
    v.addSubcommand t id name c
  | _ => .error (.pathTooDeep c.qualifiedName)

/-- The tree of a root. -/
def layout (root : String) (commands : List CommandInfo) (groups : List Group) :
    Except CommandError Tree := do
  let members := commands.filter (·.root == root)
  let declared := groupsOf root groups
  members.forM fun c => (v.checkCommand c).mapError (.violation c.qualifiedName)
  let bareIsShown := declared.isEmpty && members.all (·.sub.isEmpty)
  let t ← (firstOfEachPath members).foldlM
    (fun t c => (v.place declared bareIsShown t c).mapError (.violation c.qualifiedName))
    (Tree.new root (rootDescription root members groups))
  let t ← declared.foldlM
    (fun t g => (placeGroup declared t g).mapError (.violation (Text.join " " g.path))) t
  t.check.mapError (.violation root)
  return t

end Vocabulary

end ChatCommands.Schema
