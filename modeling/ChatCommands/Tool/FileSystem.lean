import ChatCommands.Dict
import ChatCommands.Number.Numeral
import ChatCommands.Text.FileName

/-!
# Files

What the command-line tool asks of a file system, and file systems that consist
of given files.
-/

namespace ChatCommands

/-- Why a file cannot be read. -/
inductive FileFault where
  | notFound
  | notADirectory
  | isADirectory
  | nameTooLong
  | notText
  | failed (code : Nat) (reason : String)
deriving DecidableEq

namespace FileFault

/-- A reason with the number that the system gives it. -/
def numbered (code : Nat) (reason : String) : String :=
  reason ++ " (os error " ++ Numeral.text code ++ ")"

/-- The wording of a fault. -/
def message : FileFault → String
  | notFound => numbered 2 "No such file or directory"
  | notADirectory => numbered 20 "Not a directory"
  | isADirectory => numbered 21 "Is a directory"
  | nameTooLong => numbered 36 "File name too long"
  | notText => "stream did not contain valid UTF-8"
  | failed code reason => numbered code reason

end FileFault

/-- A source of files. -/
structure FileSystem (m : Type → Type) where
  /-- The text of a file. -/
  read : String → m (Except FileFault String)
  /-- The paths of the files at and below a path, in the order of the names in each
  folder. -/
  filesBelow : String → m (Except FileFault (List String))

/-- A file, or a folder with what it holds. -/
inductive FileTree where
  | file (text : String)
  | folder (entries : List (String × FileTree))

namespace FileTree

/-- The entry of a name among others. -/
def child? (name : String) (entries : List (String × FileTree)) : Option FileTree :=
  (entries.find? (·.1 == name)).map (·.2)

/-- The entries with one set, in the order of the names. -/
def setEntry (name : String) (tree : FileTree) :
    List (String × FileTree) → List (String × FileTree)
  | [] => [(name, tree)]
  | (n, t) :: rest =>
    if name < n then (name, tree) :: (n, t) :: rest
    else if name = n then (name, tree) :: rest
    else (n, t) :: setEntry name tree rest

/-- Puts a text at a path. -/
def put (text : String) : List String → FileTree → FileTree
  | [], _ => file text
  | name :: rest, tree =>
    let entries := match tree with
      | folder entries => entries
      | file _ => []
    folder (setEntry name (put text rest ((child? name entries).getD (folder []))) entries)

/-- The tree of some files under their paths. -/
def ofFiles (files : List (String × String)) : FileTree :=
  files.foldl (fun tree f => put f.2 (Text.splitOn '/' f.1) tree) (folder [])

/-- Follows the parts of a path.  The folders on the way to the present one are
given, the nearest first. -/
def walk (outer : List FileTree) (tree : FileTree) : List String → Except FileFault FileTree
  | [] => .ok tree
  | part :: rest =>
    match tree with
    | file _ => .error .notADirectory
    | folder entries =>
      if part == "" || part == "." then walk outer tree rest
      else if part == ".." then
        match outer with
        | [] => .error .notFound
        | parent :: outer => walk outer parent rest
      else if Text.maxNameBytes < Text.byteLength part.toList then .error .nameTooLong
      else
        match child? part entries with
        | some next => walk (tree :: outer) next rest
        | none => .error .notFound

/-- What a path leads to.  Paths that start with a slash lead out of the tree. -/
def at? (tree : FileTree) (path : String) : Except FileFault FileTree :=
  if Text.maxPathBytes < Text.byteLength path.toList then .error .nameTooLong
  else if path.toList.head? == some '/' then .error .notFound
  else walk [] tree (Text.splitOn '/' path)

/-- The text at a path. -/
def read (tree : FileTree) (path : String) : Except FileFault String := do
  match ← tree.at? path with
  | file text => return text
  | folder _ => throw .isADirectory

mutual

/-- The paths of the files at and below a path. -/
def pathsBelow (path : String) : FileTree → List String
  | file _ => [path]
  | folder entries => pathsOf path entries

/-- The paths of the files among the entries of a folder. -/
def pathsOf (path : String) : List (String × FileTree) → List String
  | [] => []
  | (name, tree) :: rest => pathsBelow (Text.joinPath path name) tree ++ pathsOf path rest

end

/-- A file system that consists of a tree. -/
def fileSystem (tree : FileTree) : FileSystem Id where
  read := tree.read
  filesBelow path := (tree.at? path).map (pathsBelow path)

end FileTree

end ChatCommands
