import ChatCommands.Number.Numeral

/-!
# Violations of schemas

The rules that a declaration or a command tree can break.
-/

namespace ChatCommands

/-- Mistakes in the texts and the parts of a declaration. -/
inductive DeclarationFault where
  | flagWithoutKey (entry : String)
  | incompleteChoice (entry : String)
  | repeatedChoice (label : String)
  | namelessCondition (entry : String)
  | malformedSignature (signature : String)
  | notVariadic (parameter type : String)
  | unknownParameter (name : String)
  | emptyPath
  | noHandler
  | missingParent (node : Nat)
  | subcommandAndGroup (path : String)
  | other (message : String)
deriving DecidableEq

/-- The wording of a mistake. -/
def DeclarationFault.message : DeclarationFault → String
  | flagWithoutKey entry => s!"flag '{entry}' has no key"
  | incompleteChoice entry => s!"choice '{entry}' needs both a label and a value"
  | repeatedChoice label => s!"choice label '{label}' is declared twice"
  | namelessCondition entry => s!"condition '{entry}' has no name"
  | malformedSignature signature => s!"invalid signature '{signature}'"
  | notVariadic parameter type => s!"'{parameter}' of type '{type}' cannot be variadic"
  | unknownParameter name => s!"cannot configure unknown parameter '{name}'"
  | emptyPath => "command path is empty"
  | noHandler => "no handler attached"
  | missingParent node => s!"parent node {Numeral.text node} does not exist"
  | subcommandAndGroup path => s!"'{path}' is used both as a subcommand and as a group"
  | other message => message

/-- A rule that a command tree breaks. -/
inductive Violation where
  | nameLength (name : String) (length : Nat)
  | descriptionLength (name : String) (length : Nat)
  | duplicateSibling (name : String)
  | requiredAfterOptional (parameter : String)
  | emptyGroup (group : String)
  | variadicNotTrailing (parameter : String)
  | pathTooDeep (path : String)
  | tooManyChildren (name : String) (count limit : Nat)
  | tooManyChoices (parameter : String) (count limit : Nat)
  | unknownType (parameter type : String)
  | unknownCondition (parameter condition : String)
  | invalidDeclaration (fault : DeclarationFault)
deriving DecidableEq

namespace Violation

/-- The wording of a violation. -/
def message : Violation → String
  | nameLength name length =>
    s!"name '{name}' must be 1-32 characters (got {Numeral.text length})"
  | descriptionLength name length =>
    s!"description of '{name}' must be 1-100 characters (got {Numeral.text length})"
  | duplicateSibling name => s!"'{name}' is declared more than once under the same parent"
  | requiredAfterOptional parameter =>
    s!"required parameter '{parameter}' follows an optional parameter"
  | emptyGroup group => s!"subcommand group '{group}' has no subcommands"
  | variadicNotTrailing parameter =>
    s!"variadic parameter '{parameter}' must be the last parameter"
  | pathTooDeep path => s!"path '{path}' is deeper than root > group > subcommand"
  | tooManyChildren name count limit =>
    "'" ++ name ++ "' has " ++ Numeral.text count ++ " children; at most " ++
      Numeral.text limit ++ " are allowed"
  | tooManyChoices parameter count limit =>
    "parameter '" ++ parameter ++ "' declares " ++ Numeral.text count ++ " choices; at most " ++
      Numeral.text limit ++ " are allowed"
  | unknownType parameter type =>
    s!"parameter '{parameter}' has type '{type}' with no registered resolver"
  | unknownCondition parameter condition =>
    s!"parameter '{parameter}' references unknown condition '{condition}'"
  | invalidDeclaration fault => "invalid declaration: " ++ fault.message

/-- The stable name of a violation. -/
def code : Violation → String
  | nameLength _ _ => "name_length"
  | descriptionLength _ _ => "description_length"
  | duplicateSibling _ => "duplicate_sibling"
  | requiredAfterOptional _ => "required_after_optional"
  | emptyGroup _ => "empty_group"
  | variadicNotTrailing _ => "variadic_not_trailing"
  | pathTooDeep _ => "path_too_deep"
  | tooManyChildren _ _ _ => "too_many_children"
  | tooManyChoices _ _ _ => "too_many_choices"
  | unknownType _ _ => "unknown_type"
  | unknownCondition _ _ => "unknown_condition"
  | invalidDeclaration _ => "invalid_declaration"

end Violation

end ChatCommands
