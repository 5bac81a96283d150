import ChatCommands.Schema.Snapshot
import ChatCommands.Text.Case
import ChatCommands.Text.FileName

/-!
# Snapshot folders

A folder holds files under their names.  Every confirmed tree is kept in a file
of its own, named after its root.
-/

namespace ChatCommands

open Schema

/-- Files under their names. -/
abbrev Folder := Dict String

namespace Folder

/-- The path of the file in which the tree of a root is kept. -/
def filePath (root : String) : String :=
  Text.lower root ++ ".json"

/-- Keeps a text in the file to which a path leads, if it is one of the folder and the path does
not leave the folder on the way. -/
def write (f : Folder) (path text : String) : Folder :=
  (Text.ownFile? path).elim f (f.insert · text)

/-- Keeps a snapshot, if its root names a file. -/
def save (f : Folder) (s : Snapshot) : Folder :=
  f.write (filePath s.tree.name) s.toJson.pretty

/-- The readable snapshots of a folder in the order of the file names.  The
platform has confirmed all of them. -/
def snapshots (f : Folder) : List Snapshot :=
  (f.entries.filter fun file => Text.extension? file.1 == some "json").filterMap fun file =>
    (Snapshot.read file.2).toOption.map fun s => { s with tree := s.tree.markRegistered }

end Folder

end ChatCommands
