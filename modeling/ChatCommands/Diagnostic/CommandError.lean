import ChatCommands.Diagnostic.ArgumentFault
import ChatCommands.Diagnostic.Span
import ChatCommands.Diagnostic.Violation

/-!
# Errors

Everything that can fail, as a cause together with the raw text it concerns, the
span of the text at fault and a piece of advice.  Only refused arguments and
missing permissions are shown to the user in detail.
-/

namespace ChatCommands

/-- Mistakes in configuration files, manifests and snapshots. -/
inductive ConfigFault where
  | blankTrigger
  | noTrigger
  | mentionWithoutBot
  | malformedManifest
  | malformedConfiguration
  | unreadable (what path reason : String)
  | malformedSnapshot (path detail : String)
  | other (message : String)
deriving DecidableEq

/-- The wording of a mistake. -/
def ConfigFault.message : ConfigFault → String
  | blankTrigger => "prefixes must not be blank"
  | noTrigger => "no prefixes configured and mention_prefix is disabled"
  | mentionWithoutBot => "mention_prefix requires bot_id"
  | malformedManifest => "invalid manifest"
  | malformedConfiguration => "invalid configuration"
  | unreadable what path reason => s!"cannot read {what} '{path}': {reason}"
  | malformedSnapshot path detail => s!"invalid snapshot '{path}': {detail}"
  | other message => message

/-- Disagreements between parts of the library. -/
inductive InternalFault where
  | noResolver (type parameter : String)
  | unregisteredCondition (name : String)
  | notAnEnumeration (parameter : String)
  | unregisteredEnumeration (name : String)
  | escapedRange (number : Int) (type : String)
  | other (message : String)
deriving DecidableEq

/-- The wording of a disagreement. -/
def InternalFault.message : InternalFault → String
  | noResolver type parameter => s!"no resolver for type '{type}' of parameter '{parameter}'"
  | unregisteredCondition name => s!"condition '{name}' is not registered"
  | notAnEnumeration parameter => s!"parameter '{parameter}' is not an enumeration"
  | unregisteredEnumeration name => s!"enumeration '{name}' is not registered"
  | escapedRange number type => s!"{Numeral.intText number} escaped the range of {type}"
  | other message => message

/-- Why something failed. -/
inductive Cause where
  | invalidArgument (parameter : String) (fault : ArgumentFault)
  | permissionDenied (target : String)
  | schema (command : String) (violation : Violation)
  | registration (command message : String)
  | config (fault : ConfigFault)
  | internal (fault : InternalFault)
deriving DecidableEq

/-- The families of failures. -/
inductive ErrorFamily where
  | invalidArgument
  | permissionDenied
  | schema
  | registration
  | config
  | internal
deriving DecidableEq

namespace ErrorFamily

/-- The name of a family. -/
def name : ErrorFamily → String
  | invalidArgument => "InvalidArgument"
  | permissionDenied => "PermissionDenied"
  | schema => "SchemaConstraintViolation"
  | registration => "RegistrationFailure"
  | config => "Config"
  | internal => "Internal"

/-- Whether a failure of the family is told to the user in detail. -/
def isUserFacing : ErrorFamily → Bool
  | invalidArgument | permissionDenied => true
  | _ => false

end ErrorFamily

namespace Cause

/-- The family of a cause. -/
def family : Cause → ErrorFamily
  | invalidArgument _ _ => .invalidArgument
  | permissionDenied _ => .permissionDenied
  | schema _ _ => .schema
  | registration _ _ => .registration
  | config _ => .config
  | internal _ => .internal

/-- The whole message. -/
def message : Cause → String
  | invalidArgument parameter fault => s!"Invalid argument '{parameter}': {fault.message}"
  | permissionDenied target => s!"Permission denied: {target}"
  | schema command violation =>
    s!"Schema constraint violated in '{command}': {violation.message}"
  | registration command message => s!"Registration of '{command}' failed: {message}"
  | config fault => "Configuration error: " ++ fault.message
  | internal fault => "Internal error: " ++ fault.message

/-- The stable code. -/
def code : Cause → String
  | invalidArgument _ fault => "argot::argument::" ++ fault.code
  | permissionDenied _ => "argot::permission_denied"
  | schema _ violation => "argot::schema::" ++ violation.code
  | registration _ _ => "argot::registration"
  | config _ => "argot::config"
  | internal _ => "argot::internal"

/-- The text at the place that a report points to. -/
def label : Cause → String
  | invalidArgument _ fault => fault.message
  | permissionDenied _ => "not permitted"
  | schema _ violation => violation.message
  | registration _ message => message
  | config fault => fault.message
  | internal fault => fault.message

end Cause

/-- A failure and where it comes from. -/
structure CommandError where
  cause : Cause
  source : Option String := none
  span : Option Span := none
  help : Option String := none
deriving DecidableEq

namespace CommandError

/-- A refused argument, with the advice for its fault. -/
def invalidArgument (parameter : String) (fault : ArgumentFault) : CommandError :=
  { cause := .invalidArgument parameter fault, help := fault.advice }

/-- A missing permission. -/
def permissionDenied (target : String) : CommandError :=
  { cause := .permissionDenied target }

/-- A broken rule of a schema. -/
def violation (command : String) (violation : Violation) : CommandError :=
  { cause := .schema command violation }

/-- A refusal by the platform. -/
def registration (command message : String) : CommandError :=
  { cause := .registration command message }

/-- A mistake in a file. -/
def config (fault : ConfigFault) : CommandError :=
  { cause := .config fault }

/-- A disagreement between parts of the library. -/
def internal (fault : InternalFault) : CommandError :=
  { cause := .internal fault }

/-- Attaches the raw text and a span, unless a text is attached already. -/
def located (error : CommandError) (source : String) (span : Span) : CommandError :=
  match error.source with
  | some _ => error
  | none => { error with source := some source, span := some span }

/-- Replaces the advice. -/
def withHelp (error : CommandError) (help : String) : CommandError :=
  { error with help := some help }

/-- The place that a report points to: offset, number of bytes and text.  A
span without bytes is shown as one byte. -/
def label (error : CommandError) : Option (Nat × Nat × String) :=
  error.span.map fun span =>
    (span.start, if span.start < span.stop then span.length else 1, error.cause.label)

/-- Whether the failure is told to the user in detail. -/
def isUserFacing (error : CommandError) : Bool :=
  error.cause.family.isUserFacing

end CommandError

end ChatCommands
