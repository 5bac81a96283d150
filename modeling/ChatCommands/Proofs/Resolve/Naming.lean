import ChatCommands.Proofs.Resolve.Parameter
import ChatCommands.Proofs.Resolve.Search

/-!
# Found by its own name

A text that is no mention and no known identifier is searched as a name.  What comes of that is
told by the entities of the name, as long as the search is for the text itself.  Channels, roles
and emojis are searched under the text without the marks that people write around their names,
and an entity whose own name has such a mark is then never among the candidates: what is searched
for is shorter than its name.
-/

namespace ChatCommands

open Resolve

/-! ## Names without their marks -/

namespace Text

/-- Of two texts of which one is a part of the other, the longer one maps to more, unless nothing
was left out. -/
theorem eq_or_length_flatMap_lt {f : Char → List Char} (hf : ∀ c, f c ≠ []) {cs ds : List Char}
    (h : cs.Sublist ds) : cs = ds ∨ (cs.flatMap f).length < (ds.flatMap f).length := by
  induction h with
  | slnil => exact .inl rfl
  | cons d _ ih =>
      have hpos := List.length_pos_iff.mpr (hf d)
      rw [List.flatMap_cons, List.length_append]
      rcases ih with rfl | hlt
      · exact .inr (by omega)
      · exact .inr (by omega)
  | cons_cons d _ ih =>
      rw [List.flatMap_cons, List.flatMap_cons, List.length_append, List.length_append]
      rcases ih with rfl | hlt
      · exact .inl rfl
      · exact .inr (by omega)

theorem lowerForm_ne_nil (c : Char) : lowerForm c ≠ [] := by
  unfold lowerForm
  split
  · exact List.cons_ne_nil _ _
  · exact List.cons_ne_nil _ _

/-- A part of a text is not the text in another case. -/
theorem eq_of_fold_eq {s t : String} (h : s.toList.Sublist t.toList) (hfold : fold s = fold t) :
    s = t := by
  rcases eq_or_length_flatMap_lt lowerForm_ne_nil h with heq | hlt
  · exact String.toList_inj.mp heq
  · have hlength := congrArg List.length hfold
    rw [fold, fold] at hlength
    omega

end Text

theorem ParamType.sublist_bareName (type : ParamType) (text : String) :
    (type.bareName text).toList.Sublist text.toList := by
  have hstart : ∀ drop, (Text.dropStart drop text).toList.Sublist text.toList := by
    intro drop
    rw [Text.dropStart, String.toList_ofList]
    exact List.dropWhile_sublist _
  cases type with
  | channel | role | mentionable => exact hstart _
  | emoji =>
      rw [bareName, String.toList_ofList, Text.dropAround, Text.dropEndWhile]
      have hend := (List.dropWhile_sublist (l := (text.toList.dropWhile (· == ':')).reverse)
        (· == ':')).reverse
      rw [List.reverse_reverse] at hend
      exact hend.trans (List.dropWhile_sublist _)
  | _ => exact List.Sublist.refl _

/-! ## Entities of a name -/

/-- The name of an entity itself, whatever a guild calls it. -/
def Value.ownName? : Value → Option String
  | .user u => some u.name
  | .member m => some m.user.name
  | .channel c => some c.name
  | .role r => some r.name
  | .emoji e => some e.name
  | _ => none

/-- Apart from members, who have two names, entities are found under their own in any case. -/
theorem Slot.exists_ownName_of_mem_named {slot : Slot} {field : Field}
    (hfield : slot.field? = some field) (htype : slot.param.type ≠ .member) {name : String}
    {v : Value} (hv : v ∈ field.named name) :
    ∃ own, v.ownName? = some own ∧ Text.fold own = Text.fold name := by
  cases htype' : slot.param.type with simp only [field?, pool?, htype'] at hfield
  | user =>
      obtain rfl := Option.some.inj hfield
      obtain ⟨u, hu, rfl⟩ := List.mem_map.mp hv
      exact ⟨_, rfl, beq_iff_eq.mp (List.mem_filter.mp hu).2⟩
  | member => exact absurd htype' htype
  | channel =>
      obtain ⟨_, hpool, rfl⟩ := Option.map_eq_some_iff.mp hfield
      obtain ⟨scope, -, rfl⟩ := Option.map_eq_some_iff.mp hpool
      obtain ⟨c, hc, rfl⟩ := List.mem_map.mp hv
      obtain ⟨hname, -⟩ := Bool.and_eq_true_iff.mp (List.mem_filter.mp hc).2
      exact ⟨_, rfl, beq_iff_eq.mp hname⟩
  | role =>
      obtain ⟨_, hpool, rfl⟩ := Option.map_eq_some_iff.mp hfield
      obtain ⟨scope, -, rfl⟩ := Option.map_eq_some_iff.mp hpool
      obtain ⟨r, hr, rfl⟩ := List.mem_map.mp hv
      exact ⟨_, rfl, beq_iff_eq.mp (List.mem_filter.mp hr).2⟩
  | mentionable =>
      obtain ⟨scope, -, rfl⟩ := Option.map_eq_some_iff.mp hfield
      rcases List.mem_append.mp hv with hv | hv
      · obtain ⟨r, hr, rfl⟩ := List.mem_map.mp hv
        exact ⟨_, rfl, beq_iff_eq.mp (List.mem_filter.mp hr).2⟩
      · obtain ⟨u, hu, rfl⟩ := List.mem_map.mp hv
        exact ⟨_, rfl, beq_iff_eq.mp (List.mem_filter.mp hu).2⟩
  | emoji =>
      obtain ⟨scope, -, rfl⟩ := Option.map_eq_some_iff.mp hfield
      obtain ⟨e, he, rfl⟩ := List.mem_map.mp hv
      exact ⟨_, rfl, beq_iff_eq.mp (List.mem_filter.mp he).2⟩
  | _ => cases hfield

/-- A name and what is left of it without its marks are not the names of one entity. -/
theorem Slot.not_mem_named_of_bareName_ne {slot : Slot} {field : Field}
    (hfield : slot.field? = some field) {text : String}
    (hbare : slot.param.type.bareName text ≠ text) {v : Value} (hv : v ∈ field.named text) :
    v ≠ .absent ∧ v ∉ field.named (slot.param.type.bareName text) := by
  have htype : slot.param.type ≠ .member := by
    intro htype
    rw [htype] at hbare
    exact hbare rfl
  obtain ⟨own, hown, hfold⟩ := slot.exists_ownName_of_mem_named hfield htype hv
  constructor
  · rintro rfl
    cases hown
  · intro hv'
    obtain ⟨own', hown', hfold'⟩ := slot.exists_ownName_of_mem_named hfield htype hv'
    obtain rfl : own = own' := Option.some.inj (hown ▸ hown')
    exact hbare (Text.eq_of_fold_eq (ParamType.sublist_bareName _ text) (hfold' ▸ hfold))

/-! ## What comes of a name -/

/-- What the entities of a name come to: a single one is the value, and several are ambiguous, with
all of them as candidates in the order of the listing. -/
def Param.FoundByName (p : Param) (rest : Supply) (text : String) (named : List Value)
    (outcome : Except CommandError Value × Supply) : Prop :=
  match named with
  | [] => True
  | [entity] => outcome = (.ok entity, rest)
  | several =>
    outcome = (.error (rest.refuse p.name
      (.ambiguous p.type.keyword text (several.map (Value.candidate p.type)))), rest)

namespace Slot

variable (slot : Slot) (rest : Supply) (text : String) {named others : List Value}

/-- The outcome of a search among the entities of a name. -/
def settleNamed (named : List Value) : Except CommandError Value × Supply :=
  slot.settle rest ((Search.pick (Value.candidate slot.param.type) named).toValue slot.param
    slot.param.type.keyword text id)

/-- Several entities are ambiguous, and nothing else is. -/
theorem settleNamed_eq_ambiguous_iff {labels : List String} :
    slot.settleNamed rest text others = (.error (rest.refuse slot.param.name
        (.ambiguous slot.param.type.keyword text labels)), rest) ↔
      1 < others.length ∧ others.map (Value.candidate slot.param.type) = labels := by
  rcases others with _ | ⟨first, _ | ⟨second, more⟩⟩
  · simp only [settleNamed, settle, Search.pick, Search.toValue, List.length_nil, Nat.not_lt_zero,
      false_and, iff_false]
    split
    · exact fun h => by cases h
    · intro h
      have hcause := congrArg CommandError.cause (Except.error.inj (congrArg Prod.fst h))
      rw [Refusal.toError, Supply.cause_refuse, Supply.cause_refuse] at hcause
      cases hcause
  · simp [settleNamed, settle, Search.pick, Search.toValue, Except.mapError]
  · simp only [List.length_cons]
    constructor
    · intro h
      have hcause := congrArg CommandError.cause (Except.error.inj (congrArg Prod.fst h))
      rw [Refusal.toError, Supply.cause_refuse, Supply.cause_refuse] at hcause
      exact ⟨by omega, by simpa using hcause⟩
    · rintro ⟨-, rfl⟩
      rfl

theorem foundByName_settleNamed_self :
    slot.param.FoundByName rest text named (slot.settleNamed rest text named) := by
  cases named with
  | nil => trivial
  | cons first more =>
      cases more with
      | nil => exact rfl
      | cons second more => exact rfl

theorem fst_settleNamed_eq_ok {v : Value} (h : (slot.settleNamed rest text others).1 = .ok v) :
    v = .absent ∨ v ∈ others := by
  rcases toValue_eq_ok (mapError_eq_ok.mp h) with ⟨entity, hfound, rfl⟩ | ⟨-, -, rfl⟩
  · cases others with
    | nil => cases hfound
    | cons first more =>
        cases more with
        | nil =>
            cases hfound
            exact .inr List.mem_cons_self
        | cons => cases hfound
  · exact .inl rfl

/-- Other entities come to the same only if neither are alone and they are labelled alike. -/
theorem foundByName_settleNamed_iff (happart : ∀ v ∈ named, v ≠ .absent ∧ v ∉ others) :
    slot.param.FoundByName rest text named (slot.settleNamed rest text others) ↔
      named = [] ∨ 1 < named.length ∧ others.map (Value.candidate slot.param.type) =
        named.map (Value.candidate slot.param.type) := by
  cases named with
  | nil => simp [Param.FoundByName]
  | cons first more =>
      cases more with
      | nil =>
          obtain ⟨hpresent, hother⟩ := happart first List.mem_cons_self
          simp only [List.cons_ne_nil, List.length_singleton, Nat.lt_irrefl, false_and, or_self,
            iff_false]
          intro hfound
          rcases slot.fst_settleNamed_eq_ok rest text (congrArg Prod.fst hfound) with rfl | hmem
          · exact hpresent rfl
          · exact hother hmem
      | cons second more =>
          refine (slot.settleNamed_eq_ambiguous_iff rest text).trans ?_
          simp only [reduceCtorEq, false_or, and_congr_left_iff]
          intro hlabels
          have hlength := congrArg List.length hlabels
          rw [List.length_map, List.length_map] at hlength
          rw [hlength]

end Slot

namespace Environment

variable {env : Environment} {invocation : Invocation} {p : Param} {r : Resolver} {isLast : Bool}
  {supply rest : Supply} {piece : Piece} {text : String} {field : Field}

theorem run_of_name (ht : env.resolvers.IsStandard)
    (hr : env.resolvers.find? p.type = some r) (hsearches : p.searches = true)
    (hfield : (env.slot invocation p isLast).field? = some field)
    (hpop : supply.pop p.name = (some piece, rest)) (htext : Text.trim piece.text = text)
    (hmention : ∀ kind lookup, (kind, lookup) ∈ field.mentions → ∀ id, ¬ kind.Mentions id text)
    (hid : ∀ id, Snowflake.read? text.toList = some id → field.byId id = none) :
    r.run (env.slot invocation p isLast) supply =
      (env.slot invocation p isLast).settleNamed rest text
        (field.named (p.type.bareName text)) := by
  have hunmentioned : field.mentioned? text = none := by
    rw [Field.mentioned?, List.findSome?_eq_none_iff]
    rintro ⟨kind, lookup⟩ hmem
    rw [Option.map_eq_none_iff, Option.eq_none_iff_forall_ne_some]
    exact fun id hread => hmention kind lookup hmem id (Mention.Kind.read?_eq_some_iff.mp hread)
  have hunknown : (Snowflake.read? text.toList).bind field.byId = none :=
    Option.bind_eq_none_iff.mpr hid
  rw [run_of_searches ht hr hsearches hpop, htext]
  simp only [Slot.judgeSearch, hfield, Field.search, hunmentioned, hunknown]
  rfl

/-- A text that is no mention and no identifier of an entity finds the entities that have it for
their name, exactly when no mark is taken off it, or nothing has the name, or else when as many
other entities are shown under the same labels. -/
theorem found_by_own_name_iff {enums : List (String × List String)}
    (hresolvers : env.resolvers = .withEnums enums) (hr : env.resolvers.find? p.type = some r)
    (hsearches : p.searches = true)
    (hfield : (env.slot invocation p isLast).field? = some field)
    (hpop : supply.pop p.name = (some piece, rest)) (htext : Text.trim piece.text = text)
    (hmention : ∀ kind lookup, (kind, lookup) ∈ field.mentions → ∀ id, ¬ kind.Mentions id text)
    (hid : ∀ id, Snowflake.read? text.toList = some id → field.byId id = none) :
    p.FoundByName rest text (field.named text) (r.run (env.slot invocation p isLast) supply) ↔
      p.type.bareName text = text ∨ field.named text = [] ∨
        1 < (field.named text).length ∧
          (field.named (p.type.bareName text)).map (Value.candidate p.type) =
            (field.named text).map (Value.candidate p.type) := by
  have ht : env.resolvers.IsStandard := hresolvers ▸ ResolverTable.isStandard_withEnums enums
  let slot := env.slot invocation p isLast
  rw [run_of_name ht hr hsearches hfield hpop htext hmention hid]
  by_cases hbare : p.type.bareName text = text
  · have hself : p.FoundByName rest text (field.named text)
        (slot.settleNamed rest text (field.named text)) := slot.foundByName_settleNamed_self _ _
    have hsearched : field.named (p.type.bareName text) = field.named text := by rw [hbare]
    exact ⟨fun _ => .inl hbare, fun _ => hsearched ▸ hself⟩
  · rw [or_iff_right hbare]
    exact slot.foundByName_settleNamed_iff rest text fun v hv =>
      slot.not_mem_named_of_bareName_ne hfield hbare hv

/-- The words of a message that consists of one word. -/
def oneWord (text : String) : Input :=
  .text text [⟨text, ⟨0, text.utf8ByteSize⟩⟩]

/-- What is left of it. -/
def noWord (text : String) : Supply :=
  ⟨.text text [], none, some ⟨0, text.utf8ByteSize⟩⟩

/-- A world with one role in a guild. -/
def oneRole (name : String) : Environment :=
  ofWorld ⟨[], [], [], [⟨5, 3, name⟩], []⟩ []

/-- Where the role is searched. -/
def roleField (name : String) : Field :=
  .under .role {
    byId id := (roleIn (oneRole name).directory (.guild 3) id).map .role
    named searched := (((oneRole name).directory.roles (.guild 3)).filter fun r =>
      Text.caselessEq r.name searched).map .role }

theorem mem_roleField_mentions {name text : String} (hread : Mention.role? text = none) :
    ∀ kind lookup, (kind, lookup) ∈ (roleField name).mentions → ∀ id, ¬ kind.Mentions id text := by
  intro kind lookup hmem id hmention
  obtain ⟨rfl, -⟩ := Prod.mk.inj (List.mem_singleton.mp hmem)
  have hsome : Mention.role? text = some id := Mention.Kind.read?_eq_some_iff.mpr hmention
  rw [hread] at hsome
  cases hsome

theorem named_roleField (name searched : String) :
    (roleField name).named searched =
      if Text.caselessEq name searched then [.role ⟨5, 3, name⟩] else [] := by
  have hroles : (oneRole name).directory.roles (.guild 3) = [⟨5, 3, name⟩] := rfl
  simp only [roleField, Field.under, hroles, List.filter_singleton]
  cases Text.caselessEq name searched <;> rfl

/-- A role is found by its name in capitals. -/
theorem found_by_own_name_helpers :
    role ((oneRole "helpers").slot (within 3) granted true) { input := oneWord "HELPERS" } =
      (.ok (.role ⟨5, 3, "helpers"⟩), noWord "HELPERS") := by
  have hresolvers : (oneRole "helpers").resolvers = .withEnums [] := rfl
  have hr : (oneRole "helpers").resolvers.find? granted.type = some (orAbsent .input role) := rfl
  have hfield : ((oneRole "helpers").slot (within 3) granted true).field? =
      some (roleField "helpers") := rfl
  have hpop : Supply.pop { input := oneWord "HELPERS" } granted.name =
      (some (.word ⟨"HELPERS", ⟨0, 7⟩⟩), noWord "HELPERS") := rfl
  have htext : Text.trim "HELPERS" = "HELPERS" := by decide
  have hid : Snowflake.read? "HELPERS".toList = none := by decide
  have hbare : granted.type.bareName "HELPERS" = "HELPERS" := by decide
  have hnamed : (roleField "helpers").named "HELPERS" = [.role ⟨5, 3, "helpers"⟩] := by
    rw [named_roleField, if_pos (by decide +kernel)]
  have hfound := (found_by_own_name_iff hresolvers hr rfl hfield hpop htext
    (mem_roleField_mentions (by decide)) fun id h => by cases hid ▸ h).mpr (.inl hbare)
  rw [hnamed] at hfound
  exact hfound

/-- A role whose name begins with the mark of roles is not found by it. -/
theorem not_found_by_own_name_everyone :
    let text := "@everyone"
    (roleField text).named text = [.role ⟨5, 3, text⟩] ∧
      (∀ kind lookup, (kind, lookup) ∈ (roleField text).mentions →
        ∀ id, ¬ kind.Mentions id text) ∧
      Snowflake.read? text.toList = none ∧
      role ((oneRole text).slot (within 3) granted true) { input := oneWord text } =
        (.error ((noWord text).refuse "to" (.notFound "role" text)), noWord text) ∧
      ¬ granted.FoundByName (noWord text) text ((roleField text).named text)
        (role ((oneRole text).slot (within 3) granted true) { input := oneWord text }) := by
  intro text
  have hmention : ∀ kind lookup, (kind, lookup) ∈ (roleField text).mentions →
      ∀ id, ¬ kind.Mentions id text := mem_roleField_mentions (by decide)
  have hid : Snowflake.read? text.toList = none := by decide
  have hnamed : (roleField text).named text = [.role ⟨5, 3, text⟩] := by
    have hequal : Text.caselessEq text text = true := beq_self_eq_true _
    rw [named_roleField, if_pos hequal]
  have hrun : role ((oneRole text).slot (within 3) granted true) { input := oneWord text } =
      (.error ((noWord text).refuse "to" (.notFound "role" text)), noWord text) := by
    have ht : (oneRole text).resolvers.IsStandard := ResolverTable.isStandard_withEnums []
    have hr : (oneRole text).resolvers.find? granted.type = some (orAbsent .input role) := rfl
    have hfield : ((oneRole text).slot (within 3) granted true).field? =
        some (roleField text) := rfl
    have hpop : Supply.pop { input := oneWord text } granted.name =
        (some (.word ⟨text, ⟨0, 9⟩⟩), noWord text) := rfl
    have htext : Text.trim text = text := by decide
    have hbare : granted.type.bareName text = "everyone" := by decide
    have hothers : (roleField text).named "everyone" = [] := by
      have hdiffer : Text.caselessEq text "everyone" = false := by decide +kernel
      rw [named_roleField, hdiffer]
      rfl
    refine (run_of_name ht hr rfl hfield hpop htext hmention fun id h => by cases hid ▸ h).trans ?_
    rw [hbare, hothers]
    rfl
  refine ⟨hnamed, hmention, hid, hrun, ?_⟩
  rw [hnamed, hrun]
  exact fun hfound => by cases hfound

end Environment

end ChatCommands
