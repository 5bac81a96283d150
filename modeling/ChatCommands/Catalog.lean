import ChatCommands.Schema.Layout

/-!
# The catalog of commands

Declared commands are compiled root by root into what the two front ends need:
routes from the first word of a text to the commands it may mean, and a tree for
each root.  A root that breaks a rule is left out of both and reported.
-/

namespace ChatCommands

/-- Commands under the first words that lead to them, all in lowercase. -/
structure Routes where
  table : Dict (List Command)

namespace Routes

/-- No routes. -/
def empty : Routes := ⟨Dict.empty⟩

/-- The commands that a word in any case leads to. -/
def get? (r : Routes) (word : String) : Option (List Command) :=
  r.table.get? (Text.lower word)

/-- Whether a word leads anywhere. -/
def contains (r : Routes) (word : String) : Bool :=
  (r.get? word).isSome

/-- The words that lead somewhere, in order. -/
def aliases (r : Routes) : List String :=
  r.table.keys

/-- Number of words that lead somewhere. -/
def size (r : Routes) : Nat :=
  r.table.entries.length

/-- Adds a word, unless it leads somewhere already. -/
def add (r : Routes) (word : String) (commands : List Command) : Routes :=
  if r.contains word then r else ⟨r.table.insert (Text.lower word) commands⟩

/-- Whether two lists of words agree without regard to the case of ASCII
letters. -/
def sameWords (a b : List String) : Bool :=
  a.length == b.length && (a.zip b).all fun pair => Text.asciiEq pair.1 pair.2

/-- The first command of a whole path. -/
def find? (r : Routes) (path : List String) : Option Command :=
  match path with
  | [] => none
  | root :: rest => (r.get? root).bind fun commands => commands.find? (sameWords ·.sub rest)

end Routes

/-- A root that was left out, and why. -/
structure RootFailure where
  root : String
  error : CommandError

/-- Everything that was compiled. -/
structure Catalog where
  routes : Routes
  trees : List Schema.Tree
  failures : List RootFailure

namespace Catalog

/-- The catalog of no commands. -/
def empty : Catalog := ⟨.empty, [], []⟩

/-- The tree of a root in any case of ASCII letters. -/
def tree? (c : Catalog) (root : String) : Option Schema.Tree :=
  c.trees.find? fun t => Text.asciiEq t.name root

/-- The further names that scopes give to a root. -/
def rootAliases (root : String) (groups : List Group) : List String :=
  (groups.filter fun g => g.isRoot && g.path == [root]).flatMap (·.aliases)

/-- The commands of a root. -/
def membersOf (root : String) (commands : List Command) : List Command :=
  commands.filter (·.root == root)

/-- Compiles a root behind those compiled before. -/
def addRoot (v : Schema.Vocabulary) (commands : List Command) (groups : List Group)
    (c : Catalog) (root : String) : Catalog :=
  match v.layout root (commands.map (·.toCommandInfo)) groups with
  | .ok tree =>
    let members := membersOf root commands
    { c with
      routes := (root :: rootAliases root groups).foldl (·.add · members) c.routes
      trees := c.trees ++ [tree] }
  | .error error => { c with failures := c.failures ++ [⟨root, error⟩] }

/-- Compiles all roots in the order of their first declaration. -/
def compile (v : Schema.Vocabulary) (commands : List Command) (groups : List Group) : Catalog :=
  (commands.map (·.root)).eraseDups.foldl (addRoot v commands groups) empty

end Catalog

end ChatCommands
