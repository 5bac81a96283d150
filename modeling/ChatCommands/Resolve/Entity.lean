import ChatCommands.Resolve.Mention
import ChatCommands.Resolve.Resolver

/-!
# Entities from input

Entities are looked up in a fixed order: by a mention, by a bare identifier, and
by name without regard to case.  One entity of the name is found, several are
ambiguous, and none is missing.
-/

namespace ChatCommands.Resolve

/-- The outcome of a search. -/
inductive Search (α : Type) where
  | found (entity : α)
  | missing
  | ambiguous (candidates : List String)

namespace Search

variable {α : Type}

/-- The outcome of a lookup by identifier. -/
def ofOption : Option α → Search α
  | some entity => found entity
  | none => missing

/-- The outcome of a search by name. -/
def pick (label : α → String) : List α → Search α
  | [] => missing
  | [entity] => found entity
  | several => ambiguous (several.map label)

/-- The value of a search, where `entity` is what messages call the kind of
entity and `input` is what was searched for. -/
def toValue (p : Param) (entity input : String) (value : α → Value) :
    Search α → Except Refusal Value
  | found e => .ok (value e)
  | ambiguous candidates => .error (.argument (.ambiguous entity input candidates))
  | missing => if p.optional then .ok .absent else .error (.argument (.notFound entity input))

end Search

/-- A name with its identifier, as a list of candidates shows it. -/
def labelled (name : String) (id : Snowflake) : String :=
  name ++ " (" ++ id.text ++ ")"

/-- Searches by a mention, by a bare identifier, and among the entities of a
name.  A mention is decisive, while an identifier that is unknown may still be a
name. -/
def search {α : Type} (mentioned : Option Snowflake) (text : String)
    (byId : Snowflake → Option α) (named : List α) (label : α → String) : Search α :=
  match mentioned with
  | some id => .ofOption (byId id)
  | none =>
    match (Snowflake.read? text.toList).bind byId with
    | some entity => .found entity
    | none => .pick label named

/-- The value of an optional parameter without input. -/
def absentOr (p : Param) (self : Option Value) : Value :=
  if p.hasFlag "defaultself" then self.getD .absent else .absent

/-- Where a search looks: in the guild of the invocation, or everywhere. -/
def searchScope (slot : Slot) (entity : String) : Except Refusal Scope :=
  if slot.param.hasFlag "crossscope" then .ok .everywhere
  else
    match slot.invocation.localScope with
    | some scope => .ok scope
    | none => .error (.argument (.outOfScope entity))

/-- The users among whom a name is searched. -/
def usersIn (directory : Directory) : Scope → List User
  | .guild guild => (directory.members guild).map (·.user)
  | .everywhere => directory.users

/-- Judges a text as a user. -/
def judgeUser (slot : Slot) (text : String) : Except Refusal Value :=
  let pool := match slot.invocation.guildId with
    | some guild =>
      usersIn slot.directory (if slot.param.hasFlag "crossscope" then .everywhere else .guild guild)
    | none => slot.directory.users
  (search (Mention.user? text) text slot.directory.user
    (pool.filter fun u => Text.caselessEq u.name text)
    fun u => labelled u.name u.id).toValue slot.param "user" text .user

/-- A user: the issuer, or one found from input if the parameter is flagged
`other`. -/
def user (slot : Slot) (supply : Supply) : Except CommandError Value × Supply :=
  if slot.param.hasFlag "other" then
    slot.withPiece supply (absentOr slot.param (some (.user slot.invocation.issuer)))
      fun piece => judgeUser slot (Text.trim piece.text)
  else (.ok (.user slot.invocation.issuer), supply)

/-- Judges a text as a member of the guild of the invocation. -/
def judgeMemberOf (slot : Slot) (text : String) : Except Refusal Value :=
  match slot.invocation.guildId with
  | none => .error (.argument (.outOfScope "member"))
  | some guild =>
    (search (Mention.user? text) text (slot.directory.member guild)
      ((slot.directory.members guild).filter fun m =>
        Text.caselessEq m.displayName text || Text.caselessEq m.user.name text)
      fun m => labelled m.displayName m.user.id).toValue slot.param "member" text .member

/-- A member: the issuer, or one found from input if the parameter is flagged
`other`. -/
def member (slot : Slot) (supply : Supply) : Except CommandError Value × Supply :=
  if slot.param.hasFlag "other" then
    slot.withPiece supply (absentOr slot.param (slot.invocation.member.map .member))
      fun piece => judgeMemberOf slot (Text.trim piece.text)
  else
    match slot.invocation.member with
    | some m => (.ok (.member m), supply)
    | none =>
      slot.settle supply <|
        if slot.param.optional then .ok .absent else .error (.argument (.outOfScope "member"))

/-- Whether a channel parameter accepts a kind.  Without a list of kinds it
accepts every kind. -/
def acceptsKind (p : Param) (kind : ChannelKind) : Bool :=
  match p.flag "kinds" with
  | some kinds => (ChannelKind.readList kinds).contains kind
  | none => true

/-- Judges a text as a channel. -/
def judgeChannel (slot : Slot) (text : String) : Except Refusal Value := do
  let scope ← searchScope slot "channel"
  let name := Text.dropStart (· == '#') text
  (search (Mention.channel? text) text
    (fun id => (slot.directory.channel id).filter fun c =>
      scope.contains c.guild && acceptsKind slot.param c.kind)
    ((slot.directory.channels scope).filter fun c =>
      Text.caselessEq c.name name && acceptsKind slot.param c.kind)
    fun c => labelled c.name c.id).toValue slot.param "channel" text .channel

/-- A channel: that of the invocation, or one found from input if the parameter
is flagged `other`. -/
def channel (slot : Slot) (supply : Supply) : Except CommandError Value × Supply :=
  if slot.param.hasFlag "other" then
    slot.withPiece supply (absentOr slot.param (some (.channel slot.invocation.channel)))
      fun piece => judgeChannel slot (Text.trim piece.text)
  else (.ok (.channel slot.invocation.channel), supply)

/-- The role of an identifier, if it can be seen. -/
def roleIn (directory : Directory) (scope : Scope) (id : Snowflake) : Option Role :=
  (directory.role id).filter fun r => scope.contains (some r.guild)

/-- Judges a text as a role. -/
def judgeRole (slot : Slot) (text : String) : Except Refusal Value := do
  let scope ← searchScope slot "role"
  let name := Text.dropStart (· == '@') text
  (search (Mention.role? text) text (roleIn slot.directory scope)
    ((slot.directory.roles scope).filter fun r => Text.caselessEq r.name name)
    fun r => labelled r.name r.id).toValue slot.param "role" text .role

/-- A role found from input. -/
def role (slot : Slot) (supply : Supply) : Except CommandError Value × Supply :=
  slot.withPiece supply .absent fun piece => judgeRole slot (Text.trim piece.text)

/-- A user or a role. -/
inductive Mentionable where
  | user (user : User)
  | role (role : Role)

namespace Mentionable

/-- The value of a user or a role. -/
def value : Mentionable → Value
  | user u => .user u
  | role r => .role r

/-- A candidate; roles are marked. -/
def label : Mentionable → String
  | user u => labelled u.name u.id
  | role r => labelled ("@" ++ r.name) r.id

end Mentionable

/-- Searches users and roles.  The form of a mention tells which of them is
meant, a bare identifier is a user's first, and names are searched among both. -/
def searchMentionable (directory : Directory) (scope : Scope) (text : String) :
    Search Mentionable :=
  let name := Text.dropStart (· == '@') text
  let userById (id : Snowflake) := (directory.user id).map Mentionable.user
  let roleById (id : Snowflake) := (roleIn directory scope id).map Mentionable.role
  match Mention.user? text with
  | some id => .ofOption (userById id)
  | none =>
    search (Mention.role? text) text
      (fun id =>
        if (Mention.role? text).isSome then roleById id else (userById id).or (roleById id))
      ((((directory.roles scope).filter fun r => Text.caselessEq r.name name).map
          Mentionable.role) ++
        (((usersIn directory scope).filter fun u => Text.caselessEq u.name name).map
          Mentionable.user))
      Mentionable.label

/-- Judges a text as a user or a role. -/
def judgeMentionable (slot : Slot) (text : String) : Except Refusal Value := do
  let scope ← searchScope slot "mentionable"
  (searchMentionable slot.directory scope text).toValue slot.param "mentionable" text
    Mentionable.value

/-- A user or a role found from input. -/
def mentionable (slot : Slot) (supply : Supply) : Except CommandError Value × Supply :=
  slot.withPiece supply .absent fun piece => judgeMentionable slot (Text.trim piece.text)

/-- Judges a text as an emoji. -/
def judgeEmoji (slot : Slot) (text : String) : Except Refusal Value := do
  let scope ← searchScope slot "emoji"
  let name := String.ofList (Text.dropAround (· == ':') text.toList)
  (search (Mention.emoji? text) text
    (fun id => (slot.directory.emoji id).filter (scope.contains ·.guild))
    ((slot.directory.emojis scope).filter fun e => Text.caselessEq e.name name)
    fun e => labelled e.name e.id).toValue slot.param "emoji" text .emoji

/-- An emoji found from input. -/
def emoji (slot : Slot) (supply : Supply) : Except CommandError Value × Supply :=
  slot.withPiece supply .absent fun piece => judgeEmoji slot (Text.trim piece.text)

/-- The guild of the invocation. -/
def guild (slot : Slot) (supply : Supply) : Except CommandError Value × Supply :=
  match slot.invocation.guild with
  | some g => (.ok (.guild g), supply)
  | none =>
    slot.settle supply <|
      if slot.param.optional then .ok .absent else .error (.argument (.outOfScope "guild"))

end ChatCommands.Resolve
