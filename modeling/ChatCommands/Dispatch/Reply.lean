import ChatCommands.Command.Basic
import ChatCommands.Resolve.Resolver

/-!
# Replies

Everything that a user is told: refused input, missing permissions, how a command
is used, and that something failed without saying what.
-/

namespace ChatCommands

/-- A message to the issuer of a command. -/
inductive Reply where
  | usage (text : String)
  | error (text : String)
  | text (text : String)
deriving DecidableEq

namespace Reply

/-- What a user is told about an error.  Only refused arguments and missing
permissions are spelled out. -/
def errorText (error : CommandError) : String :=
  match error.cause with
  | .invalidArgument parameter fault =>
    let refused := "Invalid value for `" ++ parameter ++ "`: " ++ fault.message
    error.help.elim refused fun help => refused ++ " " ++ help
  | .permissionDenied target => "You do not have permission to use `" ++ target ++ "`."
  | _ => "Something went wrong while running this command."

/-- What a user is told about the use of a command. -/
def usageText (usage : String) : String :=
  "Usage: " ++ usage

/-- What a user is told about a command that failed. -/
def failureText (command : String) : String :=
  "`" ++ command ++ "` failed to complete. Please try again later."

/-- A parameter in a usage line. -/
def paramUsage (p : Param) : String :=
  let name := if p.type.isVariadic then p.name ++ "..." else p.name
  if p.requiresInput then "<" ++ name ++ ">" else "[" ++ name ++ "]"

/-- The usage line of a command: its path behind a trigger and the parameters
that take input. -/
def usageLine (trigger : String) (table : ResolverTable) (c : CommandInfo) : String :=
  Text.join " " <| (trigger ++ c.qualifiedName) ::
    ((c.params.filter fun p => !table.isIssuerOnly p).map paramUsage)

end Reply

end ChatCommands
