import ChatCommands.Catalog
import ChatCommands.Dispatch.Tokens
import ChatCommands.Dispatch.Trigger

/-!
# Routes of messages

A message leads to the command with the longest path that it spells out.  Of
several commands with that path the first one is taken that can use as many words
as are left, or else the first one.
-/

namespace ChatCommands

/-- Where a message leads. -/
inductive Route where
  | notACommand
  | unknown (word : String)
  | matched (command : Command) (rest : List Token)

namespace Route

/-- The parameters that take input. -/
def consuming (table : ResolverTable) (c : CommandInfo) : List Param :=
  c.params.filter fun p => !table.isIssuerOnly p

/-- Whether a parameter at the end takes any number of words. -/
def isGreedy (p : Param) : Bool :=
  p.type.isVariadic || (p.type == .string && !p.hasFlag "single" && !p.hasFlag "raw")

/-- Whether a number of words is neither too small nor too great for the
parameters of a command. -/
def fits (table : ResolverTable) (available : Nat) (c : CommandInfo) : Bool :=
  let params := consuming table c
  (params.filter (·.requiresInput)).length ≤ available &&
    ((params.getLast?).any isGreedy || available ≤ params.length)

/-- Whether words begin with the words of a path behind its root, in any case of
ASCII letters. -/
def spells (tokens : List Token) (c : CommandInfo) : Bool :=
  c.sub.length ≤ tokens.length &&
    (c.sub.zip tokens).all fun pair => Text.asciiEq pair.1 pair.2.text

/-- The commands with the longest path among those that are spelled out. -/
def deepest (candidates : List Command) (tokens : List Token) : List Command :=
  let spelled := candidates.filter (spells tokens ·.toCommandInfo)
  spelled.filter fun c => spelled.all (·.sub.length ≤ c.sub.length)

/-- The command that is meant, and the words behind its path. -/
def choose (table : ResolverTable) (candidates : List Command) (tokens : List Token) :
    Option (Command × List Token) :=
  let found := deepest candidates tokens
  let available (c : Command) := tokens.length - c.sub.length
  ((found.find? fun c => fits table (available c) c.toCommandInfo).or found.head?).map fun c =>
    (c, tokens.drop c.sub.length)

/-- The route of the words behind a trigger. -/
def ofTokens (routes : Routes) (table : ResolverTable) : List Token → Route
  | [] => notACommand
  | first :: tokens =>
    match (routes.get? first.text).bind (choose table · tokens) with
    | some (command, rest) => matched command rest
    | none => unknown (Text.lower first.text)

/-- The route of a message. -/
def ofText (triggers : Triggers) (routes : Routes) (table : ResolverTable) (raw : String) :
    Route :=
  match triggers.strip? raw with
  | none => notACommand
  | some (offset, body) => ofTokens routes table (Tokens.scan offset [] body)

end Route

end ChatCommands
