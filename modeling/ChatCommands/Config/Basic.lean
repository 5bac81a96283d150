import ChatCommands.Diagnostic.CommandError
import ChatCommands.Dispatch.Trigger
import ChatCommands.Text.Blank

/-!
# Configuration

The settings of a bot and the rules that they keep.
-/

namespace ChatCommands

/-- The settings of a bot. -/
structure Config where
  /-- The texts that mark messages as commands. -/
  triggers : List String := ["!"]
  /-- Whether a mention of the bot is a trigger too. -/
  mentionTrigger : Bool := false
  botId : Option Snowflake := none
  /-- Where confirmed trees are kept. -/
  snapshotFolder : Option String := none
  logFilter : String := "info"
  /-- Whether messages of bots are passed over. -/
  ignoreBots : Bool := true

namespace Config

/-- The first rule that the settings break. -/
def fault? (c : Config) : Option ConfigFault :=
  if c.triggers.any Text.isBlankText then some .blankTrigger
  else if c.triggers.isEmpty && !c.mentionTrigger then some .noTrigger
  else if c.mentionTrigger && c.botId.isNone then some .mentionWithoutBot
  else none

/-- Fails on settings that break a rule. -/
def check (c : Config) : Except CommandError Unit :=
  match c.fault? with
  | some fault => .error (.config fault)
  | none => .ok ()

/-- What marks messages as commands under the settings. -/
def activeTriggers (c : Config) : Triggers :=
  ⟨c.triggers, if c.mentionTrigger then c.botId else none⟩

/-- The trigger that usage lines show. -/
def shownTrigger (c : Config) : String :=
  c.triggers.head?.getD ""

end Config

end ChatCommands
