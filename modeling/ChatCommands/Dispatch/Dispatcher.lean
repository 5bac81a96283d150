import ChatCommands.Config.Basic
import ChatCommands.Dispatch.Reply
import ChatCommands.Dispatch.Route
import ChatCommands.Resolve.Resolution

/-!
# Dispatch

An application declares its commands once, and a dispatcher takes messages and
structured calls to them.  Every answer consists of an outcome and the events, in
order, that the outside can see: calls of handlers and replies.
-/

namespace ChatCommands

/-- Everything that an application declares. -/
structure Application where
  config : Config
  environment : Environment
  groups : List Group
  commands : List CommandDraft

/-- A ready set of commands. -/
structure Dispatcher where
  config : Config
  environment : Environment
  catalog : Catalog

/-- How a dispatch ended. -/
inductive Outcome where
  | notACommand
  | unknown
  | showedUsage
  | rejected (error : CommandError)
  | invoked
  | handlerFailed

/-- What the outside can see. -/
inductive Event where
  | called (call : Call)
  | replied (reply : Reply) (issuer : User)

namespace Application

/-- The first word of a draft's path in lowercase. -/
def rootOf (d : CommandDraft) : String :=
  (CommandDraft.pathWords d.path).head?.getD ""

/-- The commands that could be built and the roots of those that could not. -/
def built (drafts : List CommandDraft) : List Command × List RootFailure :=
  (drafts.filterMap fun d => d.build.toOption,
    drafts.filterMap fun d =>
      match d.build with
      | .ok _ => none
      | .error error => some ⟨rootOf d, error⟩)

/-- Compiles the commands.  A command that cannot be built takes the whole of its
root with it. -/
def catalog (app : Application) : Catalog :=
  let (commands, failures) := built app.commands
  let kept := commands.filter fun c => failures.all (·.root != c.root)
  let compiled :=
    Catalog.compile ⟨app.environment.resolvers, app.environment.conditions⟩ kept app.groups
  { compiled with failures := compiled.failures ++ failures }

/-- The dispatcher of an application whose settings are in order. -/
def build (app : Application) : Except CommandError Dispatcher :=
  app.config.check.map fun _ => ⟨app.config, app.environment, app.catalog⟩

end Application

namespace Dispatcher

variable (d : Dispatcher) (invocation : Invocation)

/-- The usage line of a command. -/
def usage (c : CommandInfo) : String :=
  Reply.usageLine d.config.shownTrigger d.environment.resolvers c

/-- A reply to the issuer. -/
def reply (r : Reply) : Event :=
  .replied r invocation.issuer

/-- Rejects a call. -/
def reject (error : CommandError) : Outcome × List Event :=
  (.rejected error, [reply invocation (.error (Reply.errorText error))])

/-- Tells the issuer that a command failed, and not with which error. -/
def report (c : Command) (_error : String) : Event :=
  reply invocation (.error (Reply.failureText c.qualifiedName))

/-- Calls the handler of a command.  A failure of the handler and every failure
of work that it left for later are told to the issuer. -/
def call (c : Command) (args : Arguments) : Outcome × List Event :=
  let call : Call := ⟨invocation, args, c.toCommandInfo⟩
  let run := c.handler call
  (match run.succeeded with
    | .yes => .invoked
    | .no _ => .handlerFailed,
    .called call :: run.replies.map (fun text => reply invocation (.text text)) ++
      run.errors.map (report invocation c))

/-- Runs a command on the input of a call. -/
def run (c : Command) (input : Input) : Outcome × List Event :=
  if c.permissions.toList.all (d.environment.permissions invocation) then
    match d.environment.resolve invocation c.toCommandInfo input with
    | .error error => reject invocation error
    | .ok .showUsage =>
      (.showedUsage,
        [reply invocation (.usage (Reply.usageText (d.usage c.toCommandInfo)))])
    | .ok (.resolved args) => call invocation c args
  else reject invocation (.permissionDenied c.qualifiedName)

/-- The route of a message. -/
def route (raw : String) : Route :=
  Route.ofText d.config.activeTriggers d.catalog.routes d.environment.resolvers raw

/-- Dispatches a message. -/
def onText (raw : String) : Outcome × List Event :=
  if d.config.ignoreBots && invocation.issuer.bot then (.notACommand, [])
  else
    match d.route raw with
    | .notACommand => (.notACommand, [])
    | .unknown _ => (.unknown, [])
    | .matched c rest => d.run invocation c (.text raw rest)

/-- Dispatches a structured call of the command with the given path. -/
def onOptions (path : String) (given : List TypedOption) : Outcome × List Event :=
  match d.catalog.routes.find? (Text.words path) with
  | none => (.unknown, [])
  | some c => d.run invocation c (.options given)

end Dispatcher

end ChatCommands
