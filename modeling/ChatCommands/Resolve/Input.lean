import ChatCommands.Chat.Entity
import ChatCommands.Diagnostic.Span
import ChatCommands.Number.SizedInt
import ChatCommands.Number.FloatText

/-!
# Input

What the user gave: words of a text with their places in it, or options with
typed values under the names of parameters.
-/

namespace ChatCommands

/-- A word of a raw text and where it stands. -/
structure Token where
  text : String
  span : Span
deriving DecidableEq

/-- The value of an option as the platform sends it. -/
inductive OptionValue where
  | string (s : String)
  | integer (n : SizedInt .w64)
  | number (x : Double)
  | boolean (b : Bool)
  | user (id : Snowflake)
  | channel (id : Snowflake)
  | role (id : Snowflake)
  | mentionable (id : Snowflake)

/-- The text that stands for a value where only texts are understood. -/
def OptionValue.text : OptionValue → String
  | string s => s
  | integer n => Numeral.intText n.val
  | number x => x.text
  | boolean b => if b then "true" else "false"
  | user id | channel id | role id | mentionable id => id.text

/-- An option under a name. -/
structure TypedOption where
  name : String
  value : OptionValue

/-- The input of a call. -/
inductive Input where
  | text (source : String) (tokens : List Token)
  | options (given : List TypedOption)

/-- Number of pieces of input that are left. -/
def Input.remaining : Input → Nat
  | text _ tokens => tokens.length
  | options given => given.length

/-- The raw text, where there is one. -/
def Input.source? : Input → Option String
  | text source _ => some source
  | options _ => none

/-- One piece of input taken for a parameter. -/
inductive Piece where
  | word (token : Token)
  | typed (value : OptionValue)

namespace Piece

/-- The text of a piece. -/
def text : Piece → String
  | word token => token.text
  | typed value => value.text

/-- The place of a piece in the raw text. -/
def span? : Piece → Option Span
  | word token => some token.span
  | typed _ => none

end Piece

end ChatCommands
