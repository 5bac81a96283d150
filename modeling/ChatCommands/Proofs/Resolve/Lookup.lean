import ChatCommands.Proofs.Number.Numeral
import ChatCommands.Proofs.Resolve.Judgement
import ChatCommands.Proofs.Resolve.Reading
import ChatCommands.Proofs.Text.Words

/-!
# Looking an identifier up

The digits of an identifier are no mention.  A judgement that is given them looks
the identifier up where the parameter may look, and when nothing is found there it
goes on to the entities that have the digits for a name.
-/

namespace ChatCommands

/-! ## Digits -/

namespace Snowflake

variable (id : Snowflake)

theorem trim_text : Text.trim id.text = id.text :=
  Text.trim_of_not_blank fun _ hc => Text.isBlank_of_isDigit (isDigit_of_mem_text hc)

theorem dropStart_text (mark : Char) (h : mark.isDigit = false) :
    Text.dropStart (· == mark) id.text = id.text := by
  apply Text.dropStart_of_not
  intro c hc
  rw [beq_eq_false_iff_ne]
  intro heq
  rw [← heq, isDigit_of_mem_text hc] at h
  contradiction

theorem text_ne_cons {c : Char} (h : c.isDigit = false) (rest : List Char) :
    id.text.toList ≠ c :: rest := by
  intro heq
  have hdigit : c.isDigit = true := isDigit_of_mem_text (heq ▸ List.mem_cons_self)
  rw [hdigit] at h
  contradiction

theorem mentionUser?_text : Mention.user? id.text = none := by
  unfold Mention.user?
  split
  next rest heq => exact absurd heq (id.text_ne_cons rfl _)
  next rest heq => exact absurd heq (id.text_ne_cons rfl _)
  next => rfl

theorem mentionChannel?_text : Mention.channel? id.text = none := by
  unfold Mention.channel?
  split
  next rest heq => exact absurd heq (id.text_ne_cons rfl _)
  next => rfl

theorem mentionRole?_text : Mention.role? id.text = none := by
  unfold Mention.role?
  split
  next rest heq => exact absurd heq (id.text_ne_cons rfl _)
  next => rfl

end Snowflake

/-! ## Pools -/

/-- The identifier of an entity. -/
def Value.entityId? : Value → Option Snowflake
  | user u => some u.id
  | member m => some m.user.id
  | channel c => some c.id
  | role r => some r.id
  | _ => none

/-- A directory whose lookups by identifier give entities with that identifier. -/
structure Directory.IsFaithful (d : Directory) : Prop where
  user : ∀ id u, d.user id = some u → u.id = id
  member : ∀ guild id m, d.member guild id = some m → m.user.id = id
  channel : ∀ id c, d.channel id = some c → c.id = id
  role : ∀ id r, d.role id = some r → r.id = id

/-- Where a parameter looks entities up: by their identifier, and by their name
without regard to case. -/
structure Pool where
  byId : Snowflake → Option Value
  named : String → List Value

namespace Slot

open Resolve

/-- The scope of a search, where there is one. -/
def scope? (slot : Slot) : Option Scope :=
  if slot.param.hasFlag "crossscope" then some .everywhere else slot.invocation.localScope

/-- The users that may be meant by name: those of the guild of the invocation,
unless there is none or the parameter looks everywhere. -/
def namedUsers (slot : Slot) : List User :=
  match slot.invocation.guildId with
  | some guild =>
    usersIn slot.directory (if slot.param.hasFlag "crossscope" then .everywhere else .guild guild)
  | none => slot.directory.users

/-- The pool of a parameter that looks users, members, channels, roles or
mentionables up, unless there is nowhere to look. -/
def pool? (slot : Slot) : Option Pool :=
  match slot.param.type with
  | .user => some {
      byId id := (slot.directory.user id).map .user
      named name := (slot.namedUsers.filter fun u => Text.caselessEq u.name name).map .user }
  | .member => slot.invocation.guildId.map fun guild => {
      byId id := (slot.directory.member guild id).map .member
      named name := ((slot.directory.members guild).filter fun m =>
        Text.caselessEq m.displayName name || Text.caselessEq m.user.name name).map .member }
  | .channel => slot.scope?.map fun scope => {
      byId id := ((slot.directory.channel id).filter fun c =>
        scope.contains c.guild && acceptsKind slot.param c.kind).map .channel
      named name := ((slot.directory.channels scope).filter fun c =>
        Text.caselessEq c.name name && acceptsKind slot.param c.kind).map .channel }
  | .role => slot.scope?.map fun scope => {
      byId id := (roleIn slot.directory scope id).map .role
      named name := ((slot.directory.roles scope).filter fun r =>
        Text.caselessEq r.name name).map .role }
  | .mentionable => slot.scope?.map fun scope => {
      byId id := ((slot.directory.user id).map .user).or
        ((roleIn slot.directory scope id).map .role)
      named name :=
        (((slot.directory.roles scope).filter fun r => Text.caselessEq r.name name).map .role) ++
          (((usersIn slot.directory scope).filter fun u => Text.caselessEq u.name name).map
            .user) }
  | _ => none

/-- The judgement of a text for a parameter that looks entities up. -/
def judgeEntity (slot : Slot) (text : String) : Except Refusal Value :=
  match slot.param.type with
  | .user => judgeUser slot text
  | .member => judgeMemberOf slot text
  | .channel => judgeChannel slot text
  | .role => judgeRole slot text
  | .mentionable => judgeMentionable slot text
  | _ => .ok .absent

end Slot

/-- Whether a parameter looks users, members, channels, roles or mentionables up. -/
def Param.looksUp (p : Param) : Bool :=
  match p.type with
  | .user | .member | .channel => p.hasFlag "other"
  | .role | .mentionable => true
  | _ => false

/-! ## What the digits of an identifier lead to -/

/-- A value that an identifier leads to in a pool: the entity with the identifier,
or, when there is none, the only entity that has the digits for a name. -/
inductive Pool.LeadsTo (pool : Pool) (id : Snowflake) (v : Value) : Prop where
  | byId (h : pool.byId id = some v)
  | named (hunknown : pool.byId id = none) (h : pool.named id.text = [v])

open Resolve in
/-- A search for the digits of an identifier leads to a value of the pool that it
searches. -/
theorem Pool.leadsTo_of_search {pool : Pool} {id : Snowflake} {v : Value} {α : Type}
    {byId : Snowflake → Option α} {named : List α} {label : α → String} {p : Param}
    {entity input : String} {value : α → Value}
    (hbyId : pool.byId id = (byId id).map value) (hnamed : pool.named id.text = named.map value)
    (h : (search none id.text byId named label).toValue p entity input value = .ok v)
    (hne : v ≠ .absent) : pool.LeadsTo id v := by
  rcases toValue_eq_ok h with ⟨e, hfound, rfl⟩ | ⟨-, -, habsent⟩
  · unfold search at hfound
    simp only [Snowflake.read?_text, Option.bind_some] at hfound
    cases hid : byId id with
    | some found =>
        rw [hid] at hfound hbyId
        cases hfound
        exact .byId hbyId
    | none =>
        rw [hid] at hfound hbyId
        rw [Search.eq_singleton_of_pick hfound] at hnamed
        exact .named hbyId hnamed
  · exact absurd habsent hne

namespace Slot

open Resolve

variable {slot : Slot} {id : Snowflake} {v : Value}

theorem searchScope_eq_ok {entity : String} {scope : Scope}
    (h : searchScope slot entity = .ok scope) : slot.scope? = some scope := by
  unfold searchScope at h
  unfold scope?
  split at h
  next hcross => rw [if_pos hcross, Except.ok.inj h]
  next hlocal =>
    rw [if_neg hlocal]
    split at h
    next local' hscope => rw [hscope, Except.ok.inj h]
    next => cases h

/-- A judgement of the digits of an identifier gives a value that the identifier
leads to. -/
theorem leadsTo_of_judgeEntity (h : slot.judgeEntity id.text = .ok v) (hne : v ≠ .absent) :
    ∃ pool, slot.pool? = some pool ∧ pool.LeadsTo id v := by
  cases htype : slot.param.type with simp only [judgeEntity, htype] at h
  | user =>
      rw [judgeUser, id.mentionUser?_text] at h
      simp only [pool?, htype]
      exact ⟨_, rfl, Pool.leadsTo_of_search rfl rfl h hne⟩
  | member =>
      unfold judgeMemberOf at h
      split at h
      next => cases h
      next guild hguild =>
        rw [id.mentionUser?_text] at h
        simp only [pool?, htype, hguild, Option.map_some]
        exact ⟨_, rfl, Pool.leadsTo_of_search rfl rfl h hne⟩
  | channel =>
      obtain ⟨scope, hscope, h⟩ := bind_eq_ok.mp h
      rw [id.mentionChannel?_text, id.dropStart_text '#' rfl] at h
      simp only [pool?, htype, searchScope_eq_ok hscope, Option.map_some]
      exact ⟨_, rfl, Pool.leadsTo_of_search rfl rfl h hne⟩
  | role =>
      obtain ⟨scope, hscope, h⟩ := bind_eq_ok.mp h
      rw [id.mentionRole?_text, id.dropStart_text '@' rfl] at h
      simp only [pool?, htype, searchScope_eq_ok hscope, Option.map_some]
      exact ⟨_, rfl, Pool.leadsTo_of_search rfl rfl h hne⟩
  | mentionable =>
      obtain ⟨scope, hscope, h⟩ := bind_eq_ok.mp h
      simp only [searchMentionable, id.mentionUser?_text, id.mentionRole?_text,
        Option.isSome_none, Bool.false_eq_true, if_false, id.dropStart_text '@' rfl] at h
      simp only [pool?, htype, searchScope_eq_ok hscope, Option.map_some]
      refine ⟨_, rfl, Pool.leadsTo_of_search ?_ ?_ h hne⟩
      · simp only [Option.map_or, Option.map_map]
        rfl
      · simp only [List.map_append, List.map_map]
        rfl
  | _ => exact absurd (Except.ok.inj h).symm hne

theorem entityId?_role (hfaithful : slot.directory.IsFaithful) {scope : Scope}
    (h : (roleIn slot.directory scope id).map .role = some v) : v.entityId? = some id := by
  obtain ⟨r, hr, rfl⟩ := Option.map_eq_some_iff.mp h
  have hrole : slot.directory.role id = some r := (Option.filter_eq_some_iff.mp hr).1
  exact congrArg some (hfaithful.role id r hrole)

theorem entityId?_user (hfaithful : slot.directory.IsFaithful)
    (h : (slot.directory.user id).map .user = some v) : v.entityId? = some id := by
  obtain ⟨u, hu, rfl⟩ := Option.map_eq_some_iff.mp h
  exact congrArg some (hfaithful.user id u hu)

/-- Lookups by identifier keep the identifier. -/
theorem entityId?_of_byId (hfaithful : slot.directory.IsFaithful) {pool : Pool}
    (hpool : slot.pool? = some pool) (h : pool.byId id = some v) : v.entityId? = some id := by
  cases htype : slot.param.type with simp only [pool?, htype] at hpool
  | user =>
      cases hpool
      exact entityId?_user hfaithful h
  | member =>
      obtain ⟨guild, -, rfl⟩ := Option.map_eq_some_iff.mp hpool
      obtain ⟨m, hm, rfl⟩ := Option.map_eq_some_iff.mp h
      exact congrArg some (hfaithful.member guild id m hm)
  | channel =>
      obtain ⟨scope, -, rfl⟩ := Option.map_eq_some_iff.mp hpool
      obtain ⟨c, hc, rfl⟩ := Option.map_eq_some_iff.mp h
      have hchannel : slot.directory.channel id = some c := (Option.filter_eq_some_iff.mp hc).1
      exact congrArg some (hfaithful.channel id c hchannel)
  | role =>
      obtain ⟨scope, -, rfl⟩ := Option.map_eq_some_iff.mp hpool
      exact entityId?_role hfaithful h
  | mentionable =>
      obtain ⟨scope, -, rfl⟩ := Option.map_eq_some_iff.mp hpool
      rcases Option.or_eq_some_iff.mp h with huser | ⟨-, hrole⟩
      · exact entityId?_user hfaithful huser
      · exact entityId?_role hfaithful hrole
  | _ => cases hpool

/-- A parameter that looks entities up takes one piece and judges its text. -/
theorem reading_of_looksUp (h : slot.param.looksUp = true) :
    ∃ missing, slot.reading = .one missing fun piece => slot.judgeEntity (Text.trim piece.text) := by
  cases htype : slot.param.type with simp only [Param.looksUp, htype] at h
  | user | member | channel =>
      simp only [reading, htype, ownReading, h, if_true, judgeEntity]
      exact ⟨_, rfl⟩
  | role | mentionable =>
      simp only [reading, htype, judgeEntity]
      exact ⟨_, rfl⟩
  | _ => contradiction

end Slot

end ChatCommands
