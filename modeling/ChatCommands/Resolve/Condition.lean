import ChatCommands.Chat.Directory
import ChatCommands.Param.Basic
import ChatCommands.Value

/-!
# Conditions

Checks on resolved values.  A parameter names its conditions, and a table gives
each name its check.
-/

namespace ChatCommands

/-- A check of the value of a parameter, given the text configured for it.  The
result is the message of a rejection, or nothing. -/
abbrev Condition := Invocation → Param → Option String → Value → Option String

/-- Conditions under their names in lowercase. -/
abbrev ConditionTable := Dict Condition

namespace Condition

/-- The value is not the issuer. -/
def notSelf : Condition := fun invocation _ _ value =>
  match value.user? with
  | some user =>
    if user.id == invocation.issuer.id then some "You cannot target yourself." else none
  | none => none

/-- The value is not a bot. -/
def notBot : Condition := fun _ _ _ value =>
  match value.user? with
  | some user => if user.bot then some s!"{user.name} is a bot." else none
  | none => none

/-- The text is not blank and the list not empty. -/
def nonempty : Condition := fun _ param _ value =>
  let empty := match value with
    | .string s => Text.isBlankText s
    | .strings items => items.isEmpty
    | _ => false
  if empty then some s!"{param.name} must not be empty." else none

end Condition

namespace ConditionTable

/-- Registers a condition under a name in any case. -/
def register (t : ConditionTable) (name : String) (condition : Condition) : ConditionTable :=
  t.insert (Text.asciiLower name) condition

/-- The condition of a name in any case. -/
def find? (t : ConditionTable) (name : String) : Option Condition :=
  t.get? (Text.asciiLower name)

/-- The standard conditions. -/
def standard : ConditionTable :=
  Dict.ofList
    [("not-self", Condition.notSelf), ("not-bot", Condition.notBot),
     ("nonempty", Condition.nonempty)]

end ConditionTable

end ChatCommands
