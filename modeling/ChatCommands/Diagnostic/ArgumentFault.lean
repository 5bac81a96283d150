import ChatCommands.Text.Blank
import ChatCommands.Number.Numeral

/-!
# Faults of arguments

Why an argument of a command cannot be accepted, with the wording, the stable
code and the standing advice for each cause.
-/

namespace ChatCommands

/-- A cause for which one argument is refused. -/
inductive ArgumentFault where
  | notANumber (input : String)
  | belowMinimum (input least : String)
  | aboveMaximum (input greatest : String)
  | tooShort (least actual : Nat)
  | tooLong (greatest actual : Nat)
  | notFound (entity input : String)
  | ambiguous (entity input : String) (candidates : List String)
  | notAChoice (input : String) (options : List String)
  | outOfScope (entity : String)
  | conditionFailed (condition message : String)
deriving DecidableEq

namespace ArgumentFault

/-- What the user is told. -/
def message : ArgumentFault → String
  | notANumber input => s!"'{input}' is not a valid number"
  | belowMinimum input least => s!"{input} is below the minimum of {least}"
  | aboveMaximum input greatest => s!"{input} is above the maximum of {greatest}"
  | tooShort least actual =>
    s!"must be at least {Numeral.text least} characters long (got {Numeral.text actual})"
  | tooLong greatest actual =>
    s!"must be at most {Numeral.text greatest} characters long (got {Numeral.text actual})"
  | notFound entity input => s!"no {entity} matching '{input}' was found"
  | ambiguous entity input candidates =>
    "'" ++ input ++ "' matches " ++ Numeral.text candidates.length ++ " " ++ entity ++ "s: " ++
      Text.join ", " candidates
  | notAChoice input options =>
    "'" ++ input ++ "' is not valid; must be one of: " ++ Text.join ", " options
  | outOfScope entity => s!"{entity} arguments can only be used inside a server"
  | conditionFailed _ message => message

/-- The stable name of a cause. -/
def code : ArgumentFault → String
  | notANumber _ => "not_a_number"
  | belowMinimum _ _ => "below_minimum"
  | aboveMaximum _ _ => "above_maximum"
  | tooShort _ _ => "too_short"
  | tooLong _ _ => "too_long"
  | notFound _ _ => "not_found"
  | ambiguous _ _ _ => "ambiguous_match"
  | notAChoice _ _ => "must_specify_one"
  | outOfScope _ => "not_in_scope"
  | conditionFailed _ _ => "condition_failed"

/-- The advice that goes with a cause. -/
def advice : ArgumentFault → Option String
  | ambiguous _ _ _ => some "Mention the target directly or use its ID."
  | notFound _ _ => some "Check the spelling, or mention the target directly."
  | notANumber _ => some "Use digits only, e.g. 42 or 3.5."
  | _ => none

end ArgumentFault

end ChatCommands
