import ChatCommands.Json.Printer
import ChatCommands.Schema.Limits

/-!
# The first difference between two trees

Two trees are compared from their roots down: first what two nodes say, then
their children pair by pair, then how many children there are.
-/

namespace ChatCommands.Schema

/-- Where two trees differ, and in what. -/
structure Difference where
  path : String
  what : String
deriving DecidableEq

namespace Difference

/-- One line about a difference. -/
def text (d : Difference) : String :=
  d.path ++ ": " ++ d.what

/-- A change from one text to another. -/
def change (what before after : String) : String :=
  what ++ " " ++ before ++ " -> " ++ after

/-- A text in single quotes. -/
def quoted (s : String) : String :=
  "'" ++ s ++ "'"

end Difference

/-- Equality of values that may be missing. -/
def sameValue : Option Json → Option Json → Bool
  | some a, some b => a.same b
  | none, none => true
  | _, _ => false

/-- A value that may be missing, in its compact form. -/
def valueText (value : Option Json) : String :=
  value.elim "<unset>" Json.compact

/-- The first key in order under which two sets of properties differ. -/
def Properties.difference? (a b : Properties) : Option String :=
  ((a.insertAll b.entries).keys.find? fun key => !sameValue (a.get? key) (b.get? key)).map
    fun key => Difference.change key (valueText (a.get? key)) (valueText (b.get? key))

/-- The first difference in what two nodes say. -/
def Node.difference? (a b : Node) : Option String :=
  if a.kind ≠ b.kind then some (Difference.change "kind" a.kind.title b.kind.title)
  else if a.name ≠ b.name then
    some (Difference.change "name" (Difference.quoted a.name) (Difference.quoted b.name))
  else if a.description ≠ b.description then
    some (Difference.change "description" (Difference.quoted a.description)
      (Difference.quoted b.description))
  else a.properties.difference? b.properties

namespace Tree

/-- The first difference at or below two nodes. -/
def differenceBelow (a b : Tree) : Nat → Nat → Nat → Option Difference
  | 0, _, _ => none
  | fuel + 1, i, j =>
    match a.node? i, b.node? j with
    | some x, some y =>
      match x.difference? y with
      | some what => some ⟨a.pathText i, what⟩
      | none =>
        ((x.children.zip y.children).findSome? fun pair =>
          differenceBelow a b fuel pair.1 pair.2).or <|
        if x.children.length = y.children.length then none
        else
          some ⟨a.pathText i, Numeral.text x.children.length ++ " children -> " ++
            Numeral.text y.children.length⟩
    | _, _ => none

/-- The first difference between two trees. -/
def difference? (a b : Tree) : Option Difference :=
  a.differenceBelow b (a.size + 1) a.root b.root

end Tree

end ChatCommands.Schema
