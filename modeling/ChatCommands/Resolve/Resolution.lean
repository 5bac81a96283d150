import ChatCommands.Command.Basic
import ChatCommands.Resolve.Condition
import ChatCommands.Resolve.Resolver

/-!
# Resolution of a call

The parameters of a command are resolved in the order of their declaration.  The
outcome is a value for every parameter, the wish to show how the command is
used, or the first error; nothing partial is kept.

Parameters that the invocation settles take no input.  For the others, the
permissions are checked when there is input, a default stands in when there is
none, and declared choices restrict the input before the resolver sees it.
-/

namespace ChatCommands

/-- What a resolution looks up and never changes. -/
structure Environment where
  resolvers : ResolverTable
  conditions : ConditionTable
  directory : Directory
  permissions : Permissions

/-- The outcome of a resolution without error. -/
inductive Resolution where
  | resolved (args : Arguments)
  /-- A parameter that needs input got none. -/
  | showUsage

namespace Environment

variable (env : Environment) (invocation : Invocation)

/-- Whether all permissions of a parameter are granted. -/
def permits (p : Param) : Bool :=
  p.permissions.toList.all (env.permissions invocation)

/-- The slot of a parameter. -/
def slot (p : Param) (isLast : Bool) : Slot :=
  ⟨p, invocation, env.directory, env.resolvers.enums, isLast⟩

/-- Replaces the next piece of input by the value of the choice it names.  A
typed value that is no text stays as it is. -/
def applyChoices (p : Param) (supply : Supply) : Except CommandError Supply :=
  if p.choices.isEmpty then .ok supply
  else
    match supply.pop p.name with
    | (none, supply) => .ok supply
    | (some piece, supply) =>
      let text := Text.trim piece.text
      match p.choices.find? (·.answersTo text) with
      | none =>
        .error (supply.refuse p.name (.notAChoice text (p.choices.map (·.label))))
      | some choice =>
        match piece with
        | .word _ | .typed (.string _) => .ok (supply.giveText choice.value)
        | typed => .ok (supply.give typed)

/-- Checks a value against the conditions of its parameter, in order. -/
def checkConditions (p : Param) (supply : Supply) (value : Value) :
    List ConditionUse → Except CommandError Unit
  | [] => .ok ()
  | use :: rest =>
    match env.conditions.find? use.name with
    | none => .error (.internal (.unregisteredCondition use.name))
    | some condition =>
      match condition invocation p use.config value with
      | some message => .error (supply.refuse p.name (.conditionFailed use.name message))
      | none => checkConditions p supply value rest

/-- Accepts the outcome of a resolver if the value meets the conditions of its
parameter; an absent value meets all of them. -/
def accept (p : Param) (outcome : Except CommandError Value × Supply) :
    Except CommandError (Option (Value × Input)) :=
  match outcome with
  | (.error error, _) => .error error
  | (.ok value, supply) =>
    if value.isAbsent then .ok (some (value, supply.input))
    else (checkConditions env invocation p supply value p.conditions).map fun _ =>
      some (value, supply.input)

/-- Resolves one parameter.  The result is its value and the input that is left,
or nothing if the parameter needs input and got none. -/
def resolveParam (p : Param) (resolver : Resolver) (isLast : Bool) (input : Input) :
    Except CommandError (Option (Value × Input)) :=
  let supply : Supply := { input }
  let run (supply : Supply) :=
    env.accept invocation p (resolver.run (env.slot invocation p isLast) supply)
  let runChosen (supply : Supply) := applyChoices p supply >>= run
  if resolver.isIssuerOnly p then run supply
  else if supply.hasInput p.name then
    if env.permits invocation p then runChosen supply
    else .error (.permissionDenied p.name)
  else
    match p.default with
    | some text => runChosen (supply.giveText text)
    | none =>
      if p.optional then
        if resolver.acceptsAbsent && env.permits invocation p then run supply
        else .ok (some (.absent, input))
      else .ok none

/-- Resolves parameters in order. -/
def resolveParams : List (Param × Resolver) → Input → Except CommandError (Option Arguments)
  | [], _ => .ok (some [])
  | (p, resolver) :: rest, input =>
    let isLast := !resolver.isIssuerOnly p && rest.all fun (q, r) => r.isIssuerOnly q
    match env.resolveParam invocation p resolver isLast input with
    | .error error => .error error
    | .ok none => .ok none
    | .ok (some (value, input)) =>
      (resolveParams rest input).map fun args => args.map ((p.name, value) :: ·)

/-- Finds the resolver of a parameter. -/
def withResolver (p : Param) : Except CommandError (Param × Resolver) :=
  match env.resolvers.find? p.type with
  | some resolver => .ok (p, resolver)
  | none => .error (.internal (.noResolver p.type.keyword p.name))

/-- Resolves the input of a call. -/
def resolve (command : CommandInfo) (input : Input) : Except CommandError Resolution := do
  let params ← command.params.mapM env.withResolver
  match ← env.resolveParams invocation params input with
  | some args => return .resolved args
  | none => return .showUsage

end Environment

end ChatCommands
