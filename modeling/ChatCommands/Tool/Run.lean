import ChatCommands.Config.Document
import ChatCommands.Manifest
import ChatCommands.Publish.Folder
import ChatCommands.Schema.Difference
import ChatCommands.Schema.Payload
import ChatCommands.Text.LineDiff
import ChatCommands.Tool.Arguments
import ChatCommands.Tool.FileSystem

/-!
# The command-line tool

Compiles, inspects and compares manifests.  A run reads files and ends with lines
of output and perhaps a failure.
-/

namespace ChatCommands.Tool

/-- How a run ends. -/
structure Report where
  lines : List String := []
  failure : Option String := none
  code : Nat := if failure.isSome then 1 else 0

namespace Report

/-- A run that ends well. -/
def ok (lines : List String) : Report :=
  { lines }

/-- A run that fails. -/
def failed (message : String) (lines : List String) : Report :=
  { lines, failure := some message }

/-- What is printed. -/
def output (r : Report) : String :=
  Text.join "" (r.lines.map (· ++ "\n"))

/-- The report of a run that does nothing. -/
def ofStop : Stop → Report
  | .help => {}
  | .version => { lines := ["argot 0.1.0"] }
  | .misuse => { code := 2 }

/-- One line about something that was looked at.  The status takes up six
columns. -/
def status (status label detail : String) : String :=
  String.ofList (List.replicate (6 - status.length) ' ') ++ status ++ " " ++ label ++ ": " ++
    detail

/-- A line about a root that was left out. -/
def failureLine (label : String) (f : RootFailure) : String :=
  status "FAILED" label ("root '" ++ f.root ++ "': " ++ f.error.cause.message)

/-- Lines that were changed in one way, with a mark before the first of them. -/
def changeText : Text.Change → String
  | .same lines => " " ++ Text.join "\n" lines
  | .removed lines => "-" ++ Text.join "\n" lines
  | .added lines => "+" ++ Text.join "\n" lines

end Report

variable {m : Type → Type} [Monad m] (files : FileSystem m)

/-- Reads a file of the given kind. -/
def readFile (what path : String) : m (Except CommandError String) := do
  return (← files.read path).mapError fun fault =>
    .config (.unreadable what path fault.message)

/-- Compiles the text of a manifest. -/
def compileText (config : Config) (text : String) : Except CommandError Dispatcher := do
  let manifest ← Manifest.ofText text
  (manifest.application config).build

/-- Compiles a manifest. -/
def compile (config : Config) (path : String) : m (Except CommandError Dispatcher) := do
  return (← readFile files "manifest" path).bind (compileText config)

/-- The snapshot that the text of a file holds. -/
def snapshotOf (path text : String) : Except CommandError Schema.Snapshot :=
  (Schema.Snapshot.read text).mapError fun refusal =>
    .config (.malformedSnapshot path refusal.message)

/-- Reads a snapshot. -/
def readSnapshot (path : String) : m (Except CommandError Schema.Snapshot) := do
  return (← readFile files "snapshot" path).bind (snapshotOf path)

/-- Ends with the message of an error, or goes on. -/
def orFail {α : Type} (result : Except CommandError α) (next : α → m Report) : m Report :=
  match result with
  | .ok a => next a
  | .error error => return .failed error.cause.message []

/-- Prints the payloads of a manifest. -/
def runSchema (config : Config) (manifest : String) (root : Option String) : m Report := do
  orFail (← compile files config manifest) fun d => do
    let failures := d.catalog.failures.map (Report.failureLine manifest)
    let trees := d.catalog.trees.filter fun t => root.all (Text.asciiEq t.name)
    let lines := failures ++ trees.map (·.payload.pretty)
    match root with
    | some root =>
      if trees.isEmpty then
        return .failed ("no compiled root named '" ++ root ++ "' in " ++ manifest) lines
      else return .ok lines
    | none => return .ok lines

/-- Whether a path has the extension of a manifest. -/
def isManifest (path : String) : Bool :=
  (Text.extension? (Text.lastPart path)).any ["yaml", "yml"].contains

/-- The lines about one manifest, and whether all of it was compiled. -/
def checkManifest (config : Config) (path : String) : m (List String × Bool) := do
  match ← compile files config path with
  | .error error => return ([Report.status "error" path error.cause.message], false)
  | .ok d =>
    if d.catalog.failures.isEmpty then
      let count := Numeral.text d.catalog.trees.length
      return ([Report.status "ok" path (count ++ " root(s) compiled")], true)
    else return (d.catalog.failures.map (Report.failureLine path), false)

/-- Compiles every manifest at or below a path. -/
def runCheck (config : Config) (path : String) : m Report := do
  match ← files.filesBelow path with
  | .error fault =>
    return .failed ("IO error for operation on " ++ path ++ ": " ++ fault.message) []
  | .ok paths =>
    let checked ← (paths.filter isManifest).mapM (checkManifest files config)
    let lines := checked.flatMap (·.1)
    let failed := (checked.filter (!·.2)).length
    if failed = 0 then return .ok lines
    else
      return .failed
        (Numeral.text failed ++ " of " ++ Numeral.text checked.length ++ " manifest(s) failed")
        lines

/-- The usage lines of all commands, tree by tree. -/
def usageLines (d : Dispatcher) : List String :=
  let commands := d.catalog.trees.flatMap fun t => (d.catalog.routes.get? t.name).getD []
  commands.map fun c => d.usage c.toCommandInfo

/-- Prints the usage lines of a manifest. -/
def runUsage (config : Config) (manifest : String) : m Report := do
  orFail (← compile files config manifest) fun d => return .ok (usageLines d)

/-- The lines about the changes from a snapshot to a compiled tree. -/
def differenceLines (s : Schema.Snapshot) (t : Schema.Tree) : List String :=
  match s.tree.difference? t with
  | none => [Report.status "ok" s.tree.name ("unchanged (" ++ s.externalId ++ ")")]
  | some difference =>
    ("--- " ++ difference.text ++ " ---") ::
      (Text.LineDiff.changes s.tree.payload.pretty t.payload.pretty).map Report.changeText

/-- Compares a snapshot with the tree that a manifest has for its root. -/
def runDiff (config : Config) (snapshot manifest : String) : m Report := do
  orFail (← readSnapshot files snapshot) fun s => do
    orFail (← compile files config manifest) fun d => do
      match d.catalog.tree? s.tree.name with
      | none =>
        return .failed
          ("manifest " ++ manifest ++ " has no compiled root '" ++ s.tree.name ++ "'") []
      | some t => return .ok (differenceLines s t)

/-- The settings of a run. -/
def readConfig : Option String → m (Except CommandError Config)
  | none => return .ok {}
  | some path => return (← readFile files "configuration" path).bind Config.ofText

/-- Does a job under the given settings. -/
def runJob (config : Config) : Job → m Report
  | .schema manifest root => runSchema files config manifest root
  | .check path => runCheck files config path
  | .usage manifest none => runUsage files config manifest
  | .usage manifest (some trigger) =>
    runUsage files { config with triggers := [trigger] } manifest
  | .diff snapshot manifest => runDiff files config snapshot manifest

/-- Runs the tool. -/
def run (args : List String) : m Report := do
  match Arguments.read args with
  | .error stop => return .ofStop stop
  | .ok args => orFail (← readConfig files args.config) fun config => runJob files config args.job

end ChatCommands.Tool
