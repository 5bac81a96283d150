import ChatCommands.Text.Blank
import ChatCommands.Text.Case
import ChatCommands.Number.Numeral

/-!
# Entities of a chat platform

Users, guilds and what belongs to guilds.  An entity is a plain value: identity,
names and the guild that owns it.
-/

namespace ChatCommands

/-- An identifier, unique on the whole platform. -/
abbrev Snowflake := UInt64

namespace Snowflake

/-- The identifier in decimal digits. -/
def text (id : Snowflake) : String :=
  Numeral.text id.toNat

/-- Reads decimal digits, with an optional plus sign. -/
def read? (cs : List Char) : Option Snowflake :=
  (Numeral.readUnsigned? Numeral.max64 cs).map UInt64.ofNat

end Snowflake

/-- An account. -/
structure User where
  id : Snowflake
  name : String
  bot : Bool
deriving DecidableEq

/-- The text that mentions a user. -/
def User.mention (user : User) : String :=
  "<@" ++ user.id.text ++ ">"

/-- A user as a member of a guild. -/
structure Member where
  user : User
  guild : Snowflake
  nickname : Option String
deriving DecidableEq

/-- The nickname if there is one, and the name of the account otherwise. -/
def Member.displayName (member : Member) : String :=
  member.nickname.getD member.user.name

/-- What a channel is for. -/
inductive ChannelKind where
  | text
  | direct
  | voice
  | category
  | news
  | stage
  | thread
  | forum
deriving DecidableEq

namespace ChannelKind

/-- Reads the name of a kind, of which some kinds have two. -/
def read? (s : String) : Option ChannelKind :=
  match Text.asciiLower (Text.trim s) with
  | "text" => some text
  | "dm" | "direct" => some direct
  | "voice" => some voice
  | "category" => some category
  | "news" | "announcement" => some news
  | "stage" => some stage
  | "thread" => some thread
  | "forum" => some forum
  | _ => none

/-- The name of a kind. -/
def name : ChannelKind → String
  | text => "text"
  | direct => "direct"
  | voice => "voice"
  | category => "category"
  | news => "news"
  | stage => "stage"
  | thread => "thread"
  | forum => "forum"

/-- The number of a kind in published schemas. -/
def code : ChannelKind → Nat
  | text => 0
  | direct => 1
  | voice => 2
  | category => 4
  | news => 5
  | thread => 11
  | stage => 13
  | forum => 15

/-- The known kinds in a list whose entries are separated by bars. -/
def readList (s : String) : List ChannelKind :=
  (Text.splitOn '|' s).filterMap read?

end ChannelKind

/-- A place where messages are written. -/
structure Channel where
  id : Snowflake
  guild : Option Snowflake
  name : String
  kind : ChannelKind
deriving DecidableEq

/-- A role of a guild. -/
structure Role where
  id : Snowflake
  guild : Snowflake
  name : String
deriving DecidableEq

/-- A custom emoji. -/
structure Emoji where
  id : Snowflake
  guild : Option Snowflake
  name : String
  animated : Bool
deriving DecidableEq

/-- A community with members, channels and roles. -/
structure Guild where
  id : Snowflake
  name : String
deriving DecidableEq

/-- Where a search for an entity looks. -/
inductive Scope where
  | guild (id : Snowflake)
  | everywhere
deriving DecidableEq

/-- Whether an entity of the given guild can be seen. -/
def Scope.contains : Scope → Option Snowflake → Bool
  | everywhere, _ => true
  | guild id, owner => owner == some id

end ChatCommands
