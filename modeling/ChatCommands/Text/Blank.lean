/-!
# Blank characters, trimming and words

White space is the Unicode property of that name.  Everything here is stated on
lists of characters, with a thin layer on top for strings, so that the laws of
cutting and joining are laws of lists.
-/

namespace ChatCommands.Text

/-- The characters with the property White_Space. -/
def isBlank (c : Char) : Bool :=
  let n := c.toNat
  (9 ≤ n && n ≤ 13) || n == 0x20 || n == 0x85 || n == 0xa0 || n == 0x1680 ||
    (0x2000 ≤ n && n ≤ 0x200a) || n == 0x2028 || n == 0x2029 || n == 0x202f ||
    n == 0x205f || n == 0x3000

/-- Drops the characters that satisfy `drop` at the end. -/
def dropEndWhile (drop : Char → Bool) (cs : List Char) : List Char :=
  (cs.reverse.dropWhile drop).reverse

/-- Drops the characters that satisfy `drop` at both ends. -/
def dropAround (drop : Char → Bool) (cs : List Char) : List Char :=
  dropEndWhile drop (cs.dropWhile drop)

/-- A text without the blanks at its ends, on characters. -/
def trimChars (cs : List Char) : List Char :=
  dropAround isBlank cs

/-- A text without the blanks at its ends. -/
def trim (s : String) : String :=
  String.ofList (trimChars s.toList)

/-- Whether nothing but blanks is left of a text. -/
def isBlankText (s : String) : Bool :=
  s.toList.all isBlank

/-- Drops the leading characters that satisfy `drop`. -/
def dropStart (drop : Char → Bool) (s : String) : String :=
  String.ofList (s.toList.dropWhile drop)

/-- Cuts a text at every character that satisfies `cut`, keeping empty pieces. -/
def pieces (cut : Char → Bool) : List Char → List (List Char)
  | [] => [[]]
  | c :: rest =>
    if cut c then [] :: pieces cut rest
    else
      match pieces cut rest with
      | [] => [[c]]
      | first :: others => (c :: first) :: others

/-- The pieces of a text between the occurrences of one character. -/
def splitOn (separator : Char) (s : String) : List String :=
  (pieces (· == separator) s.toList).map String.ofList

/-- The parts before and after the first occurrence of a character. -/
def splitOnce (separator : Char) (s : String) : Option (String × String) :=
  match s.toList.span (· != separator) with
  | (_, []) => none
  | (before, _ :: after) => some (String.ofList before, String.ofList after)

/-- The maximal runs of characters that are not blank. -/
def words (s : String) : List String :=
  ((pieces isBlank s.toList).filter fun piece => !piece.isEmpty).map String.ofList

/-- Number of bytes of a text in UTF-8. -/
def byteLength : List Char → Nat
  | [] => 0
  | c :: rest => c.utf8Size + byteLength rest

/-- Joins texts with a separator between neighbours. -/
def join (separator : String) (parts : List String) : String :=
  String.ofList ((parts.map String.toList).intersperse separator.toList).flatten

end ChatCommands.Text
