import ChatCommands.Chat.Directory
import ChatCommands.Diagnostic.CommandError
import ChatCommands.Param.Signature
import ChatCommands.Value

/-!
# Commands

A command is declared under a path of one to three words.  What it does is a
function of its call; everything the function can bring about is in its result.
-/

namespace ChatCommands

/-- What a command declares, apart from what it does. -/
structure CommandInfo where
  /-- The first word of the path. -/
  root : String
  /-- The words of the path behind the first. -/
  sub : List String
  params : List Param
  description : String
  help : String
  permissions : TextSet

namespace CommandInfo

/-- The whole path. -/
def path (c : CommandInfo) : List String :=
  c.root :: c.sub

/-- The words of the path with spaces between them. -/
def qualifiedName (c : CommandInfo) : String :=
  Text.join " " c.path

end CommandInfo

/-- A call of a command with resolved arguments. -/
structure Call where
  invocation : Invocation
  args : Arguments
  command : CommandInfo

/-- Whether work succeeds, and what its error says if it does not. -/
inductive Success where
  | yes
  | no (error : String)
deriving DecidableEq

namespace Success

/-- The error of work that fails. -/
def error? : Success → Option String
  | yes => none
  | no error => some error

/-- Where nobody asks what an error says, a truth value will do. -/
instance : Coe Bool Success :=
  ⟨fun succeeded => if succeeded then yes else no ""⟩

end Success

/-- What running a command brings about: replies of its own, works left for
later, each of which succeeds or fails, and success or failure of the command. -/
structure HandlerRun where
  replies : List String := []
  deferred : List Success := []
  succeeded : Success := .yes

/-- The errors of the command and of the works that it left for later. -/
def HandlerRun.errors (run : HandlerRun) : List String :=
  run.succeeded.error?.toList ++ run.deferred.filterMap Success.error?

/-- What a command does. -/
abbrev Handler := Call → HandlerRun

/-- A handler that does nothing. -/
def Handler.idle : Handler :=
  fun _ => {}

/-- A declared command. -/
structure Command extends CommandInfo where
  handler : Handler

/-- A command on its way to being declared.  The first mistake is kept until the
command is built. -/
structure CommandDraft where
  path : String
  description : String := ""
  help : String := ""
  params : List ParamDraft := []
  permissions : TextSet := Dict.empty
  handler : Option Handler := none
  fault : Option DeclarationFault := none

namespace CommandDraft

/-- Keeps the first mistake. -/
def remember (d : CommandDraft) (fault : DeclarationFault) : CommandDraft :=
  { d with fault := d.fault.or (some fault) }

/-- Adds the parameters of a signature. -/
def withSignature (d : CommandDraft) (signature : String) : CommandDraft :=
  match Signature.read signature with
  | .ok drafts => { d with params := d.params ++ drafts }
  | .error fault => d.remember fault

/-- Adds a parameter. -/
def withParam (d : CommandDraft) (param : ParamDraft) : CommandDraft :=
  { d with params := d.params ++ [param] }

/-- Changes the first element that satisfies `test`, if there is one. -/
def changeFirst {α : Type} (test : α → Bool) (change : α → α) : List α → Option (List α)
  | [] => none
  | x :: xs => if test x then some (change x :: xs) else (changeFirst test change xs).map (x :: ·)

/-- Changes a parameter that was added before. -/
def configure (d : CommandDraft) (name : String) (change : ParamDraft → ParamDraft) :
    CommandDraft :=
  match changeFirst (fun p => Text.asciiEq p.name name) change d.params with
  | some params => { d with params }
  | none => d.remember (.unknownParameter name)

/-- Adds a permission that a user needs to run the command. -/
def permit (d : CommandDraft) (permission : String) : CommandDraft :=
  { d with permissions := d.permissions.insert permission () }

/-- The words of a path, in lowercase. -/
def pathWords (path : String) : List String :=
  (Text.words path).map Text.lower

/-- Builds a parameter behind others of different names. -/
def addParam (params : List Param) (draft : ParamDraft) : Except Violation (List Param) :=
  match draft.build with
  | .error fault => .error (.invalidDeclaration fault)
  | .ok param =>
    if params.any (·.name == param.name) then .error (.duplicateSibling param.name)
    else .ok (params ++ [param])

/-- Builds the command, or tells the first mistake. -/
def build (d : CommandDraft) : Except CommandError Command :=
  let words := pathWords d.path
  let reject (violation : Violation) := CommandError.violation (Text.join " " words) violation
  match d.fault, words, d.handler with
  | some fault, _, _ => .error (reject (.invalidDeclaration fault))
  | none, [], _ => .error (.violation d.path (.invalidDeclaration .emptyPath))
  | none, _ :: _, none => .error (reject (.invalidDeclaration .noHandler))
  | none, root :: sub, some handler =>
    match d.params.foldlM addParam [] with
    | .error violation => .error (reject violation)
    | .ok params =>
      .ok {
        root
        sub
        params
        description := d.description
        help := d.help
        permissions := d.permissions
        handler }

end CommandDraft

/-- A declared scope: a root with its description and further names, or a group
of subcommands. -/
structure Group where
  path : List String
  description : String
  aliases : List String
deriving DecidableEq

namespace Group

/-- A group whose path and aliases are written in any case. -/
def declare (path description : String) (aliases : List String) : Group :=
  ⟨CommandDraft.pathWords path, description, aliases.map Text.lower⟩

/-- Whether the group stands for a whole root. -/
def isRoot (g : Group) : Bool :=
  g.path.length == 1

end Group

end ChatCommands
