import ChatCommands.Resolve.Input
import ChatCommands.Text.Blank

/-!
# Words of a text and their places

A text is cut at its blanks.  Every word keeps the bytes at which it starts and
stops.
-/

namespace ChatCommands.Tokens

/-- The word of the given characters in reverse that stops before byte `stop`,
unless it is empty. -/
def wordBefore (stop : Nat) : List Char → List Token
  | [] => []
  | word => [⟨String.ofList word.reverse, ⟨stop - Text.byteLength word, stop⟩⟩]

/-- The words of the characters from byte `offset` on, of which the first goes on
with `word`, which is held in reverse. -/
def scan (offset : Nat) (word : List Char) : List Char → List Token
  | [] => wordBefore offset word
  | c :: rest =>
    if Text.isBlank c then wordBefore offset word ++ scan (offset + c.utf8Size) [] rest
    else scan (offset + c.utf8Size) (c :: word) rest

/-- The words of a text. -/
def ofText (s : String) : List Token :=
  scan 0 [] s.toList

end ChatCommands.Tokens
