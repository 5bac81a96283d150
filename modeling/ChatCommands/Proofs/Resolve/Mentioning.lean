import ChatCommands.Proofs.Resolve.Parameter
import ChatCommands.Proofs.Resolve.Search

/-!
# Mentions decide alone

A text that mentions an identifier is settled by one lookup.  If the lookup finds nothing where the
parameter may look, nothing is found: neither identifiers nor names are tried, and so nothing else
in the directory matters.
-/

namespace ChatCommands

open Resolve

/-- What comes of a mention, by the entity that it leads to. -/
def Param.outcomeOf (p : Param) (rest : Supply) (text : String) :
    Option Value → Except CommandError Value
  | some entity => .ok entity
  | none =>
    if p.optional then .ok .absent
    else .error (rest.refuse p.name (.notFound p.type.keyword text))

theorem Slot.settle_ofOption (slot : Slot) (rest : Supply) (found : Option Value) :
    slot.settle rest
        ((Search.ofOption found).toValue slot.param slot.param.type.keyword text id) =
      (slot.param.outcomeOf rest text found, rest) := by
  cases found with
  | some entity => rfl
  | none =>
      simp only [settle, Search.ofOption, Search.toValue, Param.outcomeOf]
      split <;> rfl

/-! ## What a mention leads to -/

variable {id : Snowflake} {text : String}

/-- The mark of a role is no digit, so that a role is not mentioned like a user. -/
theorem Mention.user?_of_role (h : Kind.role.Mentions id text) : user? text = none := by
  obtain ⟨lead, digits, hlead, -, htext⟩ := h
  cases hlead
  unfold user?
  split
  next rest heq => simp [htext] at heq
  next rest _ heq =>
    obtain rfl : '&' :: (digits ++ ['>']) = rest := by simpa [htext] using heq
    rw [Option.eq_none_iff_forall_ne_some]
    intro other hother
    have hdigit := isDigit_of_closeId? hother
    contradiction
  next => rfl

namespace Field

variable {kind : Mention.Kind} {lookup : Snowflake → Option Value}

theorem mentioned?_under {own : Mention.Kind} {pool : Pool}
    (hkind : (kind, lookup) ∈ (under own pool).mentions) (h : kind.Mentions id text) :
    (under own pool).mentioned? text = some (lookup id) := by
  obtain ⟨rfl, rfl⟩ := Prod.mk.inj (List.mem_singleton.mp hkind)
  have hread := Mention.Kind.read?_eq_some_iff.mpr h
  simp only [mentioned?, under, List.findSome?_cons, hread, Option.map_some]

theorem mentioned?_ofMentionables {directory : Directory} {scope : Scope}
    (hkind : (kind, lookup) ∈ (ofMentionables directory scope).mentions)
    (h : kind.Mentions id text) :
    (ofMentionables directory scope).mentioned? text = some (lookup id) := by
  have hread := Mention.Kind.read?_eq_some_iff.mpr h
  rcases List.mem_cons.mp hkind with huser | hrole
  · obtain ⟨rfl, rfl⟩ := Prod.mk.inj huser
    simp only [mentioned?, ofMentionables, List.findSome?_cons, hread, Option.map_some]
  · obtain ⟨rfl, rfl⟩ := Prod.mk.inj (List.mem_singleton.mp hrole)
    have huser : Mention.Kind.user.read? text = none := Mention.user?_of_role h
    simp only [mentioned?, ofMentionables, List.findSome?_cons, huser, hread, Option.map_some,
      Option.map_none]

/-- A mention leads where its kind does in the field. -/
theorem mentioned?_of_field? {slot : Slot} {field : Field} (hfield : slot.field? = some field)
    (hkind : (kind, lookup) ∈ field.mentions) (h : kind.Mentions id text) :
    field.mentioned? text = some (lookup id) := by
  cases htype : slot.param.type with simp only [Slot.field?, htype] at hfield
  | user | member | channel | role | emoji =>
      obtain ⟨_, -, rfl⟩ := Option.map_eq_some_iff.mp hfield
      exact mentioned?_under hkind h
  | mentionable =>
      obtain ⟨scope, -, rfl⟩ := Option.map_eq_some_iff.mp hfield
      exact mentioned?_ofMentionables hkind h
  | _ => cases hfield

end Field

namespace Environment

variable {env : Environment} {invocation : Invocation} {p : Param} {r : Resolver} {isLast : Bool}
  {supply rest : Supply} {piece : Piece}

theorem run_of_mentions (ht : env.resolvers.IsStandard)
    (hr : env.resolvers.find? p.type = some r) (hsearches : p.searches = true) {field : Field}
    (hfield : (env.slot invocation p isLast).field? = some field) {kind : Mention.Kind}
    {lookup : Snowflake → Option Value} (hkind : (kind, lookup) ∈ field.mentions)
    (hpop : supply.pop p.name = (some piece, rest)) (htext : Text.trim piece.text = text)
    (h : kind.Mentions id text) :
    r.run (env.slot invocation p isLast) supply =
      (p.outcomeOf rest text (lookup id), rest) := by
  rw [run_of_searches ht hr hsearches hpop, htext]
  simp only [Slot.judgeSearch, hfield, Field.search, Field.mentioned?_of_field? hfield hkind h]
  exact Slot.settle_ofOption _ rest (lookup id)

/-- A parameter that searches is given a mention of one of its kinds.  The lookup of the kind
settles it: the entity that it yields is the value, and without one nothing was found.  So the
outcome is the same in every directory where this one lookup is, and it is never ambiguous. -/
theorem settled_by_mention {enums : List (String × List String)}
    (hresolvers : env.resolvers = .withEnums enums) (hr : env.resolvers.find? p.type = some r)
    (hsearches : p.searches = true) {field : Field}
    (hfield : (env.slot invocation p isLast).field? = some field) {kind : Mention.Kind}
    {lookup : Snowflake → Option Value} (hkind : (kind, lookup) ∈ field.mentions)
    (hpop : supply.pop p.name = (some piece, rest)) (htext : Text.trim piece.text = text)
    (h : kind.Mentions id text) :
    let run (directory : Directory) :=
      r.run (Environment.slot { env with directory } invocation p isLast) supply
    run env.directory = (p.outcomeOf rest text (lookup id), rest) ∧
      (∀ directory field' lookup',
        (Environment.slot { env with directory } invocation p isLast).field? = some field' →
        (kind, lookup') ∈ field'.mentions → lookup' id = lookup id →
        run directory = run env.directory) ∧
      ∀ e entity input candidates, (run env.directory).1 = .error e →
        e.cause ≠ .invalidArgument p.name (.ambiguous entity input candidates) := by
  intro run
  have ht : env.resolvers.IsStandard := hresolvers ▸ ResolverTable.isStandard_withEnums enums
  have hrun : run env.directory = (p.outcomeOf rest text (lookup id), rest) :=
    run_of_mentions ht hr hsearches hfield hkind hpop htext h
  refine ⟨hrun, ?_, ?_⟩
  · intro directory field' lookup' hfield' hkind' hagree
    let other : Environment := { env with directory }
    have hother : other.resolvers.IsStandard := ht
    have hrun' : run directory = (p.outcomeOf rest text (lookup' id), rest) :=
      run_of_mentions hother hr hsearches hfield' hkind' hpop htext h
    rw [hrun', hrun, hagree]
  · intro e entity input candidates herror hcause
    rw [hrun] at herror
    cases hfound : lookup id with
    | some found =>
        rw [hfound] at herror
        cases herror
    | none =>
        rw [hfound, Param.outcomeOf] at herror
        split at herror
        next => cases herror
        next =>
          obtain rfl := Except.error.inj herror
          rw [Supply.cause_refuse] at hcause
          simp at hcause

/-- A role is mentioned with a zero in front of its identifier, and the mention is the name of
another role. -/
theorem settled_by_mention_helpers :
    let helpers : Role := ⟨5, 3, "helpers"⟩
    let env := ofWorld ⟨[], [], [], [helpers, ⟨6, 3, "<@&05>"⟩], []⟩ []
    let rest : Supply := ⟨.text "<@&05>" [], none, some ⟨0, 6⟩⟩
    role (env.slot (within 3) granted true) { input := .text "<@&05>" [⟨"<@&05>", ⟨0, 6⟩⟩] } =
      (.ok (.role helpers), rest) := by
  intro helpers env rest
  have hresolvers : env.resolvers = .withEnums [] := rfl
  have hr : env.resolvers.find? granted.type = some (orAbsent .input role) := rfl
  have hfield : (env.slot (within 3) granted true).field? =
      some (.under .role {
        byId id := (roleIn env.directory (.guild 3) id).map .role
        named name := ((env.directory.roles (.guild 3)).filter fun r =>
          Text.caselessEq r.name name).map .role }) := rfl
  have hpop : Supply.pop { input := .text "<@&05>" [⟨"<@&05>", ⟨0, 6⟩⟩] } granted.name =
      (some (.word ⟨"<@&05>", ⟨0, 6⟩⟩), rest) := rfl
  have htext : Text.trim "<@&05>" = "<@&05>" := by decide
  have hid : Snowflake.IsWrittenAs 5 ['0', '5'] :=
    ⟨by decide, List.all_eq_true.mp rfl, by decide⟩
  have hmention : Mention.Kind.role.Mentions 5 "<@&05>" :=
    ⟨['<', '@', '&'], ['0', '5'], .role, hid, by decide⟩
  have hlookup : roleIn env.directory (.guild 3) 5 = some helpers := by decide
  obtain ⟨hrun, -, -⟩ := settled_by_mention hresolvers hr rfl hfield (List.mem_singleton_self _)
    hpop htext hmention
  simp only [hlookup] at hrun
  exact hrun

end Environment

end ChatCommands
