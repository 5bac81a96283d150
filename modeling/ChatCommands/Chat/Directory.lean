import ChatCommands.Chat.Entity

/-!
# Looking entities up

A directory answers lookups by identifier and lists what can be seen from a
scope.  It may be any such source; a world of finite lists gives one.
-/

namespace ChatCommands

/-- A source of entities. -/
structure Directory where
  user : Snowflake → Option User
  users : List User
  /-- The member of a guild with the identifier of a user. -/
  member : Snowflake → Snowflake → Option Member
  members : Snowflake → List Member
  channel : Snowflake → Option Channel
  channels : Scope → List Channel
  role : Snowflake → Option Role
  roles : Scope → List Role
  emoji : Snowflake → Option Emoji
  emojis : Scope → List Emoji

/-- All entities there are, in lists. -/
structure World where
  users : List User
  members : List Member
  channels : List Channel
  roles : List Role
  emojis : List Emoji

namespace World

/-- A world without entities. -/
def empty : World := ⟨[], [], [], [], []⟩

/-- Lookups give the first entity with the identifier, and listings keep the
order of the lists. -/
def directory (w : World) : Directory where
  user id := w.users.find? (·.id == id)
  users := w.users
  member guild id := w.members.find? fun m => m.guild == guild && m.user.id == id
  members guild := w.members.filter (·.guild == guild)
  channel id := w.channels.find? (·.id == id)
  channels scope := w.channels.filter (scope.contains ·.guild)
  role id := w.roles.find? (·.id == id)
  roles scope := w.roles.filter fun r => scope.contains (some r.guild)
  emoji id := w.emojis.find? (·.id == id)
  emojis scope := w.emojis.filter (scope.contains ·.guild)

end World

/-- Who invoked a command, and where. -/
structure Invocation where
  issuer : User
  member : Option Member
  guild : Option Guild
  channel : Channel
deriving DecidableEq

namespace Invocation

/-- The guild of the invocation. -/
def guildId (i : Invocation) : Option Snowflake :=
  i.guild.map (·.id)

/-- The scope of the guild of the invocation. -/
def localScope (i : Invocation) : Option Scope :=
  i.guildId.map .guild

end Invocation

/-- Whether an invocation has a permission of the given name. -/
abbrev Permissions := Invocation → String → Bool

/-- Every permission is granted. -/
def Permissions.all : Permissions :=
  fun _ _ => true

end ChatCommands
