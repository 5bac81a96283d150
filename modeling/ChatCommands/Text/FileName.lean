import ChatCommands.Text.Blank

/-!
# File names

The extension of a name, and the parts of a path between slashes.
-/

namespace ChatCommands.Text

/-- The part of a file name behind its last point.  A point at the front does
not count. -/
def extension? (name : String) : Option String :=
  match pieces (· == '.') name.toList with
  | [_] | [[], _] => none
  | parts => parts.getLast?.map String.ofList

/-- The last part of a path. -/
def lastPart (path : String) : String :=
  (splitOn '/' path).getLast?.getD ""

/-- The path of a name in a folder. -/
def joinPath (folder name : String) : String :=
  if folder.toList.getLast? == some '/' then folder ++ name else folder ++ "/" ++ name

/-- The greatest number of bytes of a file name. -/
def maxNameBytes : Nat := 255

/-- The greatest number of bytes of a path. -/
def maxPathBytes : Nat := 4095

/-- Whether a file can have the given name. -/
def isFileName (name : String) : Bool :=
  name.toList.all (fun c => c != '/' && c.toNat != 0) && byteLength name.toList ≤ maxNameBytes

/-- The name of the file of a folder to which a path leads, if it leads to one without
passing through another folder. -/
def ownFile? (path : String) : Option String :=
  match (splitOn '/' path).reverse with
  | name :: onTheWay =>
    let stays := onTheWay.all ["", "."].contains && path.toList.head? != some '/'
    let named := isFileName name && !(["", ".", ".."].contains name)
    if stays && named then some name else none
  | [] => none

end ChatCommands.Text
