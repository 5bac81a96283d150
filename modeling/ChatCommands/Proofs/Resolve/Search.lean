import ChatCommands.Proofs.Resolve.Lookup
import ChatCommands.Proofs.Resolve.Mention
import ChatCommands.Resolve.Resolution

/-!
# One search for all entities

The six kinds of parameters that look entities up differ in where they look, in the mentions
that they understand and in the marks that they take off a name.  Apart from that they search in
one way: a mention that is understood decides alone, then an identifier of the pool, then the
entities of the name.
-/

namespace ChatCommands

open Resolve

/-! ## Marks -/

/-- A name without the marks that a type takes off. -/
def ParamType.bareName (type : ParamType) (text : String) : String :=
  match type with
  | .channel => Text.dropStart (· == '#') text
  | .role | .mentionable => Text.dropStart (· == '@') text
  | .emoji => String.ofList (Text.dropAround (· == ':') text.toList)
  | _ => text

/-- An entity in a list of candidates.  Roles are marked where users are candidates too. -/
def Value.candidate (type : ParamType) : Value → String
  | .user u => labelled u.name u.id
  | .member m => labelled m.displayName m.user.id
  | .channel c => labelled c.name c.id
  | .role r => labelled (if type = .mentionable then "@" ++ r.name else r.name) r.id
  | .emoji e => labelled e.name e.id
  | _ => ""

/-! ## Where a parameter searches -/

/-- A pool with the mentions that are understood, in the order in which they are tried, and where
each of them leads. -/
structure Field extends Pool where
  mentions : List (Mention.Kind × (Snowflake → Option Value))

namespace Field

/-- A field with one kind of mentions, which lead where identifiers do. -/
def under (kind : Mention.Kind) (pool : Pool) : Field :=
  { pool with mentions := [(kind, pool.byId)] }

/-- Where a text leads that is a mention. -/
def mentioned? (field : Field) (text : String) : Option (Option Value) :=
  field.mentions.findSome? fun (kind, lookup) => (kind.read? text).map lookup

/-- Searches by a mention, by a bare identifier, and among the entities of the name. -/
def search (field : Field) (type : ParamType) (text : String) : Search Value :=
  match field.mentioned? text with
  | some found => .ofOption found
  | none =>
    match (Snowflake.read? text.toList).bind field.byId with
    | some entity => .found entity
    | none => .pick (Value.candidate type) (field.named (type.bareName text))

/-- The users and roles of a scope.  Users are looked up in all of the directory when it is not by
name. -/
def ofMentionables (directory : Directory) (scope : Scope) : Field :=
  let userById (id : Snowflake) := (directory.user id).map Value.user
  let roleById (id : Snowflake) := (roleIn directory scope id).map Value.role
  { byId id := (userById id).or (roleById id)
    named name :=
      (((directory.roles scope).filter fun r => Text.caselessEq r.name name).map .role) ++
        (((usersIn directory scope).filter fun u => Text.caselessEq u.name name).map .user)
    mentions := [(.user, userById), (.role, roleById)] }

/-- The emojis of a scope. -/
def ofEmojis (directory : Directory) (scope : Scope) : Field :=
  under .emoji {
    byId id := ((directory.emoji id).filter (scope.contains ·.guild)).map .emoji
    named name := ((directory.emojis scope).filter fun e =>
      Text.caselessEq e.name name).map .emoji }

end Field

namespace Slot

/-- Where a parameter searches, unless there is nowhere to search. -/
def field? (slot : Slot) : Option Field :=
  match slot.param.type with
  | .user | .member => slot.pool?.map (.under .user)
  | .channel => slot.pool?.map (.under .channel)
  | .role => slot.pool?.map (.under .role)
  | .mentionable => slot.scope?.map (.ofMentionables slot.directory)
  | .emoji => slot.scope?.map (.ofEmojis slot.directory)
  | _ => none

/-- The judgement of a text by a search. -/
def judgeSearch (slot : Slot) (text : String) : Except Refusal Value :=
  match slot.field? with
  | some field =>
    (field.search slot.param.type text).toValue slot.param slot.param.type.keyword text id
  | none => .error (.argument (.outOfScope slot.param.type.keyword))

end Slot

/-- Whether a parameter searches for entities. -/
def Param.searches (p : Param) : Bool :=
  match p.type with
  | .user | .member | .channel => p.hasFlag "other"
  | .role | .mentionable | .emoji => true
  | _ => false

/-! ## The judgements are searches -/

variable {p : Param} {entity input text : String} {α : Type}

theorem toValue_pick {value : α → Value} {label : α → String} {label' : Value → String}
    (hlabel : ∀ a, label' (value a) = label a) (named : List α) :
    (Search.pick label named).toValue p entity input value =
      (Search.pick label' (named.map value)).toValue p entity input id := by
  cases named with
  | nil => rfl
  | cons first others =>
      cases others with
      | nil => rfl
      | cons second others => simp [Search.pick, Search.toValue, hlabel]

theorem toValue_ofOption (value : α → Value) (found : Option α) :
    (Search.ofOption found).toValue p entity input value =
      (Search.ofOption (found.map value)).toValue p entity input id := by
  cases found <;> rfl

/-- Without a mention, an entity of the identifier is found, or else those of the name count. -/
theorem toValue_unmentioned {value : α → Value} {label : α → String} {label' : Value → String}
    (hlabel : ∀ a, label' (value a) = label a) (found : Option α) (named : List α) :
    (match found with
      | some entity => Search.found entity
      | none => Search.pick label named).toValue p entity input value =
    (match found.map value with
      | some entity => Search.found entity
      | none => Search.pick label' (named.map value)).toValue p entity input id := by
  cases found with
  | some found => rfl
  | none => exact toValue_pick hlabel named

/-- A search with one kind of mentions is a search of a field. -/
theorem toValue_search {value : α → Value} {label : α → String} {type : ParamType}
    {byId : Snowflake → Option α} {named : List α} (kind : Mention.Kind) (pool : Pool)
    (hlabel : ∀ a, Value.candidate type (value a) = label a)
    (hbyId : ∀ id, pool.byId id = (byId id).map value)
    (hnamed : pool.named (type.bareName text) = named.map value) :
    (search (kind.read? text) text byId named label).toValue p entity input value =
      ((Field.under kind pool).search type text).toValue p entity input id := by
  have hpool : pool.byId = fun id => (byId id).map value := funext hbyId
  unfold search Field.search Field.mentioned? Field.under
  simp only [List.findSome?_cons, List.findSome?_nil, hpool, hnamed]
  cases kind.read? text with
  | some id => exact toValue_ofOption value (byId id)
  | none =>
      refine (toValue_unmentioned hlabel _ named).trans ?_
      rw [Option.map_bind]
      rfl

/-- A search for users and roles is a search of their field. -/
theorem toValue_searchMentionable (directory : Directory) (scope : Scope) :
    (searchMentionable directory scope text).toValue p entity input Mentionable.value =
      ((Field.ofMentionables directory scope).search .mentionable text).toValue p entity input
        id := by
  have hlabel : ∀ m : Mentionable, Value.candidate .mentionable m.value = m.label := by
    intro m
    cases m <;> rfl
  unfold searchMentionable search Field.search Field.mentioned? Field.ofMentionables
  simp only [List.findSome?_cons, List.findSome?_nil, Mention.Kind.read?]
  cases Mention.user? text with
  | some id =>
      simp only [Option.map_some]
      cases directory.user id <;> rfl
  | none =>
      cases Mention.role? text with
      | some id =>
          simp only [Option.map_none, Option.map_some, Option.isSome_some, if_true]
          cases roleIn directory scope id <;> rfl
      | none =>
          have hbyId : ∀ id, (((directory.user id).map Mentionable.user).or
              ((roleIn directory scope id).map Mentionable.role)).map Mentionable.value =
              ((directory.user id).map Value.user).or ((roleIn directory scope id).map .role) := by
            intro id
            rw [Option.map_or, Option.map_map, Option.map_map]
            rfl
          refine (toValue_unmentioned hlabel _ _).trans ?_
          simp only [Option.isSome_none, Bool.false_eq_true, if_false, Option.map_bind,
            Function.comp_def, hbyId, List.map_append, List.map_map]
          rfl

namespace Slot

variable {slot : Slot}

theorem searchScope_eq (slot : Slot) (entity : String) :
    searchScope slot entity =
      match slot.scope? with
      | some scope => .ok scope
      | none => .error (.argument (.outOfScope entity)) := by
  unfold searchScope scope?
  split
  · rfl
  · rfl

theorem judgeUser_eq (htype : slot.param.type = .user) :
    judgeUser slot text = slot.judgeSearch text := by
  simp only [judgeSearch, field?, pool?, htype, Option.map_some]
  exact toValue_search .user _ (fun _ => rfl) (fun _ => rfl) rfl

theorem judgeMemberOf_eq (htype : slot.param.type = .member) :
    judgeMemberOf slot text = slot.judgeSearch text := by
  simp only [judgeMemberOf, judgeSearch, field?, pool?, htype]
  cases slot.invocation.guildId with
  | none => rfl
  | some guild => exact toValue_search .user _ (fun _ => rfl) (fun _ => rfl) rfl

theorem judgeChannel_eq (htype : slot.param.type = .channel) :
    judgeChannel slot text = slot.judgeSearch text := by
  simp only [judgeChannel, judgeSearch, field?, pool?, htype, searchScope_eq]
  cases slot.scope? with
  | none => rfl
  | some scope => exact toValue_search .channel _ (fun _ => rfl) (fun _ => rfl) rfl

theorem judgeRole_eq (htype : slot.param.type = .role) :
    judgeRole slot text = slot.judgeSearch text := by
  simp only [judgeRole, judgeSearch, field?, pool?, htype, searchScope_eq]
  cases slot.scope? with
  | none => rfl
  | some scope => exact toValue_search .role _ (fun _ => rfl) (fun _ => rfl) rfl

theorem judgeEmoji_eq (htype : slot.param.type = .emoji) :
    judgeEmoji slot text = slot.judgeSearch text := by
  simp only [judgeEmoji, judgeSearch, field?, htype, searchScope_eq]
  cases slot.scope? with
  | none => rfl
  | some scope => exact toValue_search .emoji _ (fun _ => rfl) (fun _ => rfl) rfl

theorem judgeMentionable_eq (htype : slot.param.type = .mentionable) :
    judgeMentionable slot text = slot.judgeSearch text := by
  simp only [judgeMentionable, judgeSearch, field?, htype, searchScope_eq]
  cases slot.scope? with
  | none => rfl
  | some scope => exact toValue_searchMentionable slot.directory scope

/-- A parameter that searches takes one piece and searches for its text.  What it stands for
without a piece has nothing to do with the directory. -/
theorem exists_reading_of_searches (slot : Slot) (h : slot.param.searches = true) :
    ∃ missing, ∀ directory, reading { slot with directory } =
      .one missing fun piece => judgeSearch { slot with directory } (Text.trim piece.text) := by
  cases htype : slot.param.type with simp only [Param.searches, htype] at h
  | user =>
      refine ⟨absentOr slot.param (some (.user slot.invocation.issuer)), fun directory => ?_⟩
      simp only [reading, htype, ownReading, h, if_true, ← judgeUser_eq]
  | member =>
      refine ⟨absentOr slot.param (slot.invocation.member.map .member), fun directory => ?_⟩
      simp only [reading, htype, ownReading, h, if_true, ← judgeMemberOf_eq]
  | channel =>
      refine ⟨absentOr slot.param (some (.channel slot.invocation.channel)), fun directory => ?_⟩
      simp only [reading, htype, ownReading, h, if_true, ← judgeChannel_eq]
  | role =>
      refine ⟨.absent, fun directory => ?_⟩
      simp only [reading, htype, ← judgeRole_eq]
  | mentionable =>
      refine ⟨.absent, fun directory => ?_⟩
      simp only [reading, htype, ← judgeMentionable_eq]
  | emoji =>
      refine ⟨.absent, fun directory => ?_⟩
      simp only [reading, htype, ← judgeEmoji_eq]
  | _ => contradiction

end Slot

namespace Environment

variable {env : Environment} {invocation : Invocation} {r : Resolver} {isLast : Bool}

/-- The resolver of a parameter that searches judges the piece that it takes by a search. -/
theorem run_of_searches (ht : env.resolvers.IsStandard)
    (hr : env.resolvers.find? p.type = some r) (hsearches : p.searches = true)
    {supply rest : Supply} {piece : Piece} (hpop : supply.pop p.name = (some piece, rest)) :
    r.run (env.slot invocation p isLast) supply =
      let slot := env.slot invocation p isLast
      slot.settle rest (slot.judgeSearch (Text.trim piece.text)) := by
  let slot := env.slot invocation p isLast
  obtain ⟨missing, hreading⟩ := slot.exists_reading_of_searches hsearches
  have hslot : supply.pop slot.param.name = (some piece, rest) := hpop
  rw [ht.run_eq slot hr, hreading slot.directory, Reading.run, Slot.withPiece, hslot]

theorem isIssuerOnly_of_searches (ht : env.resolvers.IsStandard)
    (hr : env.resolvers.find? p.type = some r) (hsearches : p.searches = true)
    (invocation : Invocation) : r.isIssuerOnly p = false := by
  let slot := env.slot invocation p true
  obtain ⟨missing, hreading⟩ := slot.exists_reading_of_searches hsearches
  refine ht.isIssuerOnly_of_reading slot hr fun result hunread => ?_
  have hone : slot.reading = .one missing _ := hreading slot.directory
  rw [hunread] at hone
  cases hone

/-- A role that is looked up. -/
def granted : Param :=
  ⟨"to", .role, false, none, Dict.empty, Dict.empty, [], [], none, none, none, none, none⟩

/-- An invocation by a user in a guild. -/
def within (guild : Snowflake) : Invocation :=
  ⟨⟨1, "ada", false⟩, none, some ⟨guild, "home"⟩, ⟨2, some guild, "lobby", .text⟩⟩

end Environment

end ChatCommands
