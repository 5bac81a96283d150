/-!
# Places in a YAML document

A cursor holds the characters that are left and the place where they start.
Columns decide how blocks are nested, and lines decide how far a key may reach.
-/

namespace ChatCommands.Yaml

/-- Whether a character ends a line. -/
def isBreak (c : Char) : Bool :=
  c == '\n' || c == '\r' || c.toNat == 0x85 || c.toNat == 0x2028 || c.toNat == 0x2029

/-- Whether a character is a space or a tab. -/
def isGap (c : Char) : Bool :=
  c == ' ' || c == '\t'

/-- Whether a character that may be missing ends a word. -/
def endsWord (c : Option Char) : Bool :=
  c.all fun c => isBreak c || isGap c

/-- Whether a document may hold a character. -/
def isAllowed (c : Char) : Bool :=
  let n := c.toNat
  n == 9 || n == 10 || n == 13 || (0x20 ≤ n && n ≤ 0x7e) || n == 0x85 ||
    (0xa0 ≤ n && n ≤ 0xd7ff) || (0xe000 ≤ n && n ≤ 0xfffd) || 0x10000 ≤ n

/-- A place in a document and the characters from there on. -/
structure Cursor where
  rest : List Char
  index : Nat := 0
  line : Nat := 0
  column : Nat := 0

namespace Cursor

/-- The character at a distance. -/
def ahead (c : Cursor) (distance : Nat) : Option Char :=
  c.rest[distance]?

/-- The next character. -/
def next (c : Cursor) : Option Char :=
  c.rest.head?

/-- Goes past a number of characters of the line. -/
def skip (c : Cursor) (count : Nat) : Cursor :=
  { c with rest := c.rest.drop count, index := c.index + count, column := c.column + count }

/-- Goes past a line break of the given number of characters. -/
def newLine (c : Cursor) (count : Nat) : Cursor :=
  ⟨c.rest.drop count, c.index + count, c.line + 1, 0⟩

/-- The line break at the cursor, as the text of a document has it, and the next
line.  At any other place nothing is read. -/
def takeBreak (c : Cursor) : List Char × Cursor :=
  match c.rest with
  | '\r' :: '\n' :: _ => (['\n'], c.newLine 2)
  | b :: _ =>
    if b == '\n' || b == '\r' || b.toNat == 0x85 then (['\n'], c.newLine 1)
    else if isBreak b then ([b], c.newLine 1)
    else ([], c)
  | [] => ([], c)

/-- Goes past the characters of the line that satisfy a test. -/
def skipWhile (test : Char → Bool) (c : Cursor) : Cursor :=
  c.skip ((c.rest.takeWhile fun x => test x && !isBreak x).length)

/-- Goes past spaces and tabs. -/
def skipGap (c : Cursor) : Cursor :=
  c.skipWhile isGap

/-- Goes past a comment, if there is one. -/
def skipComment (c : Cursor) : Cursor :=
  if c.next == some '#' then c.skipWhile fun _ => true else c

/-- Whether three equal characters stand alone at the start of a line. -/
def atMarker (c : Cursor) (mark : Char) : Bool :=
  c.column == 0 && (c.rest.take 3 == [mark, mark, mark]) && endsWord (c.ahead 3)

/-- Whether a document starts or ends at the cursor. -/
def atBoundary (c : Cursor) : Bool :=
  c.atMarker '-' || c.atMarker '.'

end Cursor

end ChatCommands.Yaml
