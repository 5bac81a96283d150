import ChatCommands.Config.Basic
import ChatCommands.Yaml.Record

/-!
# Configuration files

Settings in a file, where those that are left out keep their defaults.
-/

namespace ChatCommands.Config

open Yaml

/-- Reads settings, whatever rules they break. -/
def ofYaml? (n : Node) : Option Config := do
  let fields ← n.fields?
    ["prefixes", "mention_prefix", "bot_id", "snapshot_dir", "log_filter", "ignore_bots"]
  let given : Config := {}
  return {
    triggers := ← defaulted? fields "prefixes" given.triggers (Node.list? Node.text?)
    mentionTrigger := ← defaulted? fields "mention_prefix" given.mentionTrigger Node.bool?
    botId := (← defaulted? fields "bot_id" none (Node.optional? Node.count?)).map UInt64.ofNat
    snapshotFolder := ← defaulted? fields "snapshot_dir" none (Node.optional? Node.text?)
    logFilter := ← defaulted? fields "log_filter" given.logFilter Node.text?
    ignoreBots := ← defaulted? fields "ignore_bots" given.ignoreBots Node.bool? }

/-- The settings that a text holds, which keep all rules. -/
def ofText (s : String) : Except CommandError Config :=
  match (Node.ofText? s).bind ofYaml? with
  | some config => config.check.map fun _ => config
  | none => .error (.config .malformedConfiguration)

end ChatCommands.Config
