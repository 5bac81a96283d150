import ChatCommands.Tool.Run

/-!
# The program

The command-line tool on the files of the machine.
-/

namespace ChatCommands.Tool

/-- What went wrong in an access to a file. -/
def faultOf : IO.Error → FileFault
  | .noFileOrDirectory _ _ _ => .notFound
  | .inappropriateType _ code reason => .failed code.toNat reason
  | .permissionDenied _ code reason => .failed code.toNat reason
  | .invalidArgument _ code reason => .failed code.toNat reason
  | .resourceExhausted _ code reason => .failed code.toNat reason
  | .noSuchThing _ code reason => .failed code.toNat reason
  | .otherError code reason => .failed code.toNat reason
  | _ => .failed 5 "Input/output error"

/-- Runs an access to a file. -/
def attempt {α : Type} (access : IO α) : IO (Except FileFault α) := do
  try return .ok (← access)
  catch error => return .error (faultOf error)

/-- The paths of the files at and below a path. -/
partial def pathsBelow (path : String) : IO (List String) := do
  let place : IO.FS.DirEntry := ⟨path, ""⟩
  if (← place.root.metadata).type == .dir then
    let names := (← place.root.readDir).toList.map (·.fileName)
    let sorted := names.mergeSort fun a b => decide (a ≤ b)
    return (← sorted.mapM fun name => pathsBelow (Text.joinPath path name)).flatten
  else return [path]

/-- The files of the machine. -/
def machine : FileSystem IO where
  read path := return (← attempt (IO.FS.readBinFile path)).bind fun bytes =>
    match String.fromUTF8? bytes with
    | some text => .ok text
    | none => .error .notText
  filesBelow path := attempt (pathsBelow path)

end ChatCommands.Tool

/-- Runs the tool with the given arguments. -/
def main (args : List String) : IO UInt32 := do
  let report ← ChatCommands.Tool.run ChatCommands.Tool.machine args
  (← IO.getStdout).putStr report.output
  match report.failure with
  | some message => (← IO.getStderr).putStrLn ("Error: " ++ message)
  | none => pure ()
  return report.code.toUInt32
