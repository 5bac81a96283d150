import ChatCommands.Dispatch.Dispatcher
import ChatCommands.Resolve.Standard
import ChatCommands.Yaml.Record

/-!
# Manifests

Commands declared in a file, together with the enumerations and groups that they
use.  What the commands do is not part of a manifest: all of them get one
handler.
-/

namespace ChatCommands

/-- What a manifest adds to a parameter of a signature. -/
structure ParamNotes where
  description : Option String
  flags : Option String
  choices : Option String
  permissions : List String
  conditions : Option String
  leastValue : Option Bound
  greatestValue : Option Bound
  leastLength : Option Nat
  greatestLength : Option Nat

/-- A command of a manifest. -/
structure CommandEntry where
  path : String
  description : String
  help : String
  signature : String
  permissions : List String
  params : Dict ParamNotes

/-- A group of a manifest. -/
structure GroupEntry where
  path : String
  description : String
  aliases : List String

/-- Commands with the enumerations and groups that they use. -/
structure Manifest where
  enums : Dict (List String)
  groups : List GroupEntry
  commands : List CommandEntry

namespace ParamNotes

open Yaml

/-- Reads notes. -/
def ofYaml? (n : Node) : Option ParamNotes := do
  let fields ← n.fields?
    ["description", "flags", "choices", "permissions", "conditions", "min_value", "max_value",
      "min_length", "max_length"]
  let text (name : String) := defaulted? fields name none (Node.optional? Node.text?)
  let limit (name : String) := defaulted? fields name none (Node.optional? Node.bound?)
  let length (name : String) := defaulted? fields name none (Node.optional? Node.count?)
  return {
    description := ← text "description"
    flags := ← text "flags"
    choices := ← text "choices"
    permissions := ← defaulted? fields "permissions" [] (Node.list? Node.text?)
    conditions := ← text "conditions"
    leastValue := ← limit "min_value"
    greatestValue := ← limit "max_value"
    leastLength := ← length "min_length"
    greatestLength := ← length "max_length" }

/-- Adds notes to the draft of a parameter.  A note replaces what the draft has,
except that flags and permissions come on top. -/
def apply (notes : ParamNotes) (d : ParamDraft) : ParamDraft :=
  { d with
    description := notes.description.or d.description
    flags := d.flags ++ notes.flags.toList
    choices := notes.choices.or d.choices
    conditions := notes.conditions.or d.conditions
    permissions := (notes.permissions.foldl ParamDraft.permit d).permissions
    leastValue := notes.leastValue.or d.leastValue
    greatestValue := notes.greatestValue.or d.greatestValue
    leastLength := notes.leastLength.or d.leastLength
    greatestLength := notes.greatestLength.or d.greatestLength }

end ParamNotes

namespace CommandEntry

open Yaml

/-- Reads a command. -/
def ofYaml? (n : Node) : Option CommandEntry := do
  let fields ← n.fields?
    ["path", "description", "help", "signature", "permissions", "params"]
  return {
    path := ← required? fields "path" Node.text?
    description := ← defaulted? fields "description" "" Node.text?
    help := ← defaulted? fields "help" "" Node.text?
    signature := ← defaulted? fields "signature" "" Node.text?
    permissions := ← defaulted? fields "permissions" [] (Node.list? Node.text?)
    params := ← defaulted? fields "params" Dict.empty (Node.dict? ParamNotes.ofYaml?) }

/-- The draft of a command with a handler. -/
def draft (entry : CommandEntry) (handler : Handler) : CommandDraft :=
  let start : CommandDraft :=
    { path := entry.path, description := entry.description, help := entry.help,
      handler := some handler }
  let permitted := entry.permissions.foldl CommandDraft.permit
    (start.withSignature entry.signature)
  entry.params.entries.foldl (fun d (name, notes) => d.configure name notes.apply) permitted

end CommandEntry

namespace GroupEntry

open Yaml

/-- Reads a group. -/
def ofYaml? (n : Node) : Option GroupEntry := do
  let fields ← n.fields? ["path", "description", "aliases"]
  return {
    path := ← required? fields "path" Node.text?
    description := ← defaulted? fields "description" "" Node.text?
    aliases := ← defaulted? fields "aliases" [] (Node.list? Node.text?) }

/-- The declared group. -/
def group (entry : GroupEntry) : Group :=
  .declare entry.path entry.description entry.aliases

end GroupEntry

namespace Manifest

open Yaml

/-- Reads a manifest. -/
def ofYaml? (n : Node) : Option Manifest := do
  let fields ← n.fields? ["enums", "groups", "commands"]
  return {
    enums := ← defaulted? fields "enums" Dict.empty (Node.dict? (Node.list? Node.text?))
    groups := ← defaulted? fields "groups" [] (Node.list? GroupEntry.ofYaml?)
    commands := ← defaulted? fields "commands" [] (Node.list? CommandEntry.ofYaml?) }

/-- The manifest that a text holds. -/
def ofText (s : String) : Except CommandError Manifest :=
  match (Node.ofText? s).bind ofYaml? with
  | some m => .ok m
  | none => .error (.config .malformedManifest)

/-- The drafts of the commands, all with one handler. -/
def drafts (m : Manifest) (handler : Handler) : List CommandDraft :=
  m.commands.map (·.draft handler)

/-- The application of a manifest, in which all permissions are granted, there is
nothing to look up, and no command does anything. -/
def application (m : Manifest) (config : Config) : Application where
  config
  environment := ⟨.withEnums m.enums.entries, .standard, World.empty.directory, .all⟩
  groups := m.groups.map GroupEntry.group
  commands := m.drafts .idle

end Manifest

end ChatCommands
