import ChatCommands.Diagnostic.CommandError
import ChatCommands.Resolve.Input
import ChatCommands.Text.Case

/-!
# The supply of a parameter

The input as one parameter sees it.  Words are taken in order, options by the
name of the parameter, and a piece that was put back goes before both.  The
supply remembers the span of what was taken last, so that a refusal can point at
it.
-/

namespace ChatCommands

/-- Input from which a parameter takes pieces. -/
structure Supply where
  input : Input
  /-- A piece that is taken before anything else. -/
  putBack : Option Piece := none
  lastSpan : Option Span := none

namespace Supply

/-- Whether an option goes by the name of a parameter. -/
def isNamed (name : String) (option : TypedOption) : Bool :=
  Text.asciiEq option.name name

/-- The first option of a name, and the others. -/
def takeNamed (name : String) : List TypedOption → Option (OptionValue × List TypedOption)
  | [] => none
  | option :: rest =>
    if isNamed name option then some (option.value, rest)
    else (takeNamed name rest).map fun (value, rest) => (value, option :: rest)

/-- Whether there is input for the parameter of the given name. -/
def hasInput (s : Supply) (name : String) : Bool :=
  s.putBack.isSome ||
    match s.input with
    | .text _ tokens => !tokens.isEmpty
    | .options given => given.any (isNamed name)

/-- Takes the next piece for the parameter of the given name. -/
def pop (s : Supply) (name : String) : Option Piece × Supply :=
  match s.putBack with
  | some piece => (some piece, { s with putBack := none, lastSpan := piece.span?.or s.lastSpan })
  | none =>
    match s.input with
    | .text source (token :: rest) =>
      (some (.word token), { s with input := .text source rest, lastSpan := some token.span })
    | .text _ [] => (none, s)
    | .options given =>
      match takeNamed name given with
      | some (value, rest) => (some (.typed value), { s with input := .options rest })
      | none => (none, s)

/-- The smallest span around the spans of some pieces. -/
def spanOf (pieces : List Piece) : Option Span :=
  (pieces.filterMap Piece.span?).foldl
    (fun joined span => some (joined.elim span (·.join span))) none

/-- Takes all pieces for the parameter of the given name: every word that is
left, or one option. -/
def popRest (s : Supply) (name : String) : List Piece × Supply :=
  match s.input with
  | .text source tokens =>
    let pieces := s.putBack.toList ++ tokens.map .word
    (pieces, ⟨.text source [], none, (spanOf pieces).or s.lastSpan⟩)
  | .options _ =>
    match s.pop name with
    | (some piece, s) => ([piece], s)
    | (none, s) => ([], s)

/-- Puts a piece back. -/
def give (s : Supply) (piece : Piece) : Supply :=
  { s with putBack := some piece }

/-- Puts a text back as a word in the place of what was taken last. -/
def giveText (s : Supply) (text : String) : Supply :=
  s.give (.word ⟨text, s.lastSpan.getD .zero⟩)

/-- The refusal of an argument, which points at what was taken last. -/
def refuse (s : Supply) (parameter : String) (fault : ArgumentFault) : CommandError :=
  let error := CommandError.invalidArgument parameter fault
  match s.input.source?, s.lastSpan with
  | some source, some span => error.located source span
  | _, _ => error

end Supply

end ChatCommands
