import ChatCommands.Text.Case
import ChatCommands.Text.WordTable

/-!
# Word characters and matching on texts

What may stand in a name between colons, and the small vocabulary of matching a
fixed text at the front of another.
-/

namespace ChatCommands.Text

/-- Letters, marks, decimal digits, connecting punctuation and join controls. -/
def isWordChar (c : Char) : Bool :=
  if c.toNat < 128 then c.isAlphanum || c == '_' else inRanges wordRanges c

/-- The rest of a list behind the given front, if it has that front. -/
def dropLead : List Char → List Char → Option (List Char)
  | [], cs => some cs
  | _ :: _, [] => none
  | p :: ps, c :: cs => if p == c then dropLead ps cs else none

/-- Whether a text begins with another. -/
def startsWith (s lead : String) : Bool :=
  (dropLead lead.toList s.toList).isSome

/-- Cuts a list at every occurrence of a nonempty separator, leftmost first.
An empty separator cuts nothing. -/
def cutAt (separator : List Char) (cs : List Char) : List (List Char) :=
  match separator with
  | [] => [cs]
  | _ :: _ => go separator cs.length [] cs
where
  go (separator : List Char) : Nat → List Char → List Char → List (List Char)
    | 0, piece, cs => [piece.reverse ++ cs]
    | _, piece, [] => [piece.reverse]
    | fuel + 1, piece, c :: cs =>
      match dropLead separator (c :: cs) with
      | some rest => piece.reverse :: go separator fuel [] rest
      | none => go separator fuel (c :: piece) cs

end ChatCommands.Text
