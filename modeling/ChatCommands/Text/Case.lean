import ChatCommands.Text.LowerTable
import ChatCommands.Text.CasedTable

/-!
# Case

Lowercase forms of characters and texts, and the two ways in which names are
compared without regard to case: on all of Unicode, character by character, and
on the letters of ASCII alone.
-/

namespace ChatCommands.Text

/-- Whether a code point lies in one of the given ranges. -/
def inRanges (ranges : List (Nat × Nat)) (c : Char) : Bool :=
  ranges.any fun range => range.1 ≤ c.toNat && c.toNat ≤ range.2

/-- The one-to-one lowercase mapping. -/
def lowerChar (c : Char) : Char :=
  if c.toNat < 128 then c.toLower
  else
    match lowerRuns.find? (·.covers c.toNat) with
    | some run => Char.ofNat ((c.toNat : Int) + run.shift).toNat
    | none => c

/-- The lowercase form of one character on its own: a dotted capital I becomes
an i followed by a combining dot. -/
def lowerForm (c : Char) : List Char :=
  if c == Char.ofNat 0x130 then ['i', Char.ofNat 0x307] else [lowerChar c]

/-- The lowercase forms of all characters, each taken on its own. -/
def fold (s : String) : List Char :=
  s.toList.flatMap lowerForm

/-- Equality without regard to case, over all of Unicode. -/
def caselessEq (a b : String) : Bool :=
  fold a == fold b

/-- A text with the letters of ASCII in lowercase. -/
def asciiLower (s : String) : String :=
  String.ofList (s.toList.map Char.toLower)

/-- A text with the letters of ASCII in uppercase. -/
def asciiUpper (s : String) : String :=
  String.ofList (s.toList.map Char.toUpper)

/-- Equality without regard to the case of ASCII letters. -/
def asciiEq (a b : String) : Bool :=
  a.toList.map Char.toLower == b.toList.map Char.toLower

/-- Whether the nearest character that is not passed over has case. -/
def facesLetter (cs : List Char) : Bool :=
  match cs.dropWhile (inRanges caseIgnorableRanges) with
  | [] => false
  | c :: _ => inRanges casedRanges c

/-- Lowercase of a text whose part before the present position is given in
reverse.  A capital sigma at the end of a word takes its final form. -/
def lowerFrom (before : List Char) : List Char → List Char
  | [] => []
  | c :: rest =>
    (if c == Char.ofNat 0x3a3 then
      [if facesLetter before && !facesLetter rest then Char.ofNat 0x3c2 else Char.ofNat 0x3c3]
    else lowerForm c) ++ lowerFrom (c :: before) rest

/-- The lowercase form of a whole text. -/
def lower (s : String) : String :=
  String.ofList (lowerFrom [] s.toList)

end ChatCommands.Text
