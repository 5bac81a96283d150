import ChatCommands.Number.Bound
import ChatCommands.Param.Declaration
import ChatCommands.Param.ParamType

/-!
# Parameters

A declared parameter of a command, and the draft from which it is built.  A
draft keeps its declaration strings as they were written; building reads them.
-/

namespace ChatCommands

/-- One formal argument of a command. -/
structure Param where
  name : String
  type : ParamType
  optional : Bool
  default : Option String
  flags : Dict String
  permissions : TextSet
  choices : List Choice
  conditions : List ConditionUse
  /-- Limits that were given apart from the flags. -/
  leastLength : Option Nat
  greatestLength : Option Nat
  leastValue : Option Bound
  greatestValue : Option Bound
  description : Option String

namespace Param

/-- Whether a call that gives the parameter no input cannot run. -/
def requiresInput (p : Param) : Bool :=
  !p.optional && p.default.isNone

/-- The value of a flag. -/
def flag (p : Param) (key : String) : Option String :=
  p.flags.get? key

/-- Whether a flag is set. -/
def hasFlag (p : Param) (key : String) : Bool :=
  p.flags.contains key

/-- A limit given by a flag, which goes before the other. -/
def boundOf (p : Param) (key : String) (other : Option Bound) : Option Bound :=
  ((p.flag key).bind Bound.read?).or other

/-- A length given by a flag, which goes before the other. -/
def lengthOf (p : Param) (key : String) (other : Option Nat) : Option Nat :=
  ((p.flag key).bind fun s => Numeral.readUnsigned? Numeral.max64 s.toList).or other

/-- The least number allowed. -/
def minBound (p : Param) : Option Bound := p.boundOf "min" p.leastValue

/-- The greatest number allowed. -/
def maxBound (p : Param) : Option Bound := p.boundOf "max" p.greatestValue

/-- The least number of characters allowed. -/
def minLength (p : Param) : Option Nat := p.lengthOf "minlen" p.leastLength

/-- The greatest number of characters allowed. -/
def maxLength (p : Param) : Option Nat := p.lengthOf "maxlen" p.greatestLength

/-- Text limits of the published description: the name stands in for a missing
one. -/
def shownDescription (p : Param) : String :=
  p.description.getD p.name

end Param

/-- A parameter on its way to being declared. -/
structure ParamDraft where
  name : String
  type : ParamType
  optional : Bool := false
  default : Option String := none
  flags : List String := []
  permissions : TextSet := Dict.empty
  choices : Option String := none
  conditions : Option String := none
  leastLength : Option Nat := none
  greatestLength : Option Nat := none
  leastValue : Option Bound := none
  greatestValue : Option Bound := none
  description : Option String := none

namespace ParamDraft

/-- Adds a permission that a user needs to give the parameter input. -/
def permit (d : ParamDraft) (permission : String) : ParamDraft :=
  { d with permissions := d.permissions.insert permission () }

/-- Adds a declaration string of flags. -/
def withFlags (d : ParamDraft) (spec : String) : ParamDraft :=
  { d with flags := d.flags ++ [spec] }

/-- The flags of all declaration strings; those of a later string replace those
of an earlier one. -/
def readFlags (d : ParamDraft) : Except DeclarationFault (Dict String) :=
  d.flags.foldlM (fun flags spec => do
    return flags.insertAll (← Declaration.readFlags spec).entries) Dict.empty

/-- Reads the declaration strings. -/
def build (d : ParamDraft) : Except DeclarationFault Param := do
  let flags ← d.readFlags
  let choices ← Declaration.readChoices (d.choices.getD "")
  let conditions ← Declaration.readConditions (d.conditions.getD "")
  return {
    name := Text.lower d.name
    type := d.type
    optional := d.optional
    default := d.default
    flags
    permissions := d.permissions
    choices
    conditions
    leastLength := d.leastLength
    greatestLength := d.greatestLength
    leastValue := d.leastValue
    greatestValue := d.greatestValue
    description := d.description }

end ParamDraft

end ChatCommands
