import ChatCommands.Proofs.Resolve.Pointing
import ChatCommands.Proofs.Resolve.Search

/-!
# Parameters that stay in a guild

Members, channels, roles and emojis are looked up in the guild of the invocation, unless the
parameter asks for every guild.  Lookups by identifier go through everything there is and are
filtered when they come back, while listings are filtered from the start.  As long as identifiers
are unique both see the same entities, and so what is in other guilds makes no difference.
-/

namespace ChatCommands

open Resolve

/-! ## Worlds that agree in a guild -/

/-- With unique keys, an entity that is looked up and may be seen is found among those that may be
seen. -/
theorem find?_filter_of_nodup {α κ : Type} [DecidableEq κ] {key : α → κ} {xs : List α}
    (h : (xs.map key).Nodup) (k : κ) (sees : α → Bool) :
    (xs.find? (key · == k)).filter sees = (xs.filter sees).find? (key · == k) := by
  induction xs with
  | nil => rfl
  | cons x rest ih =>
      obtain ⟨hfresh, hrest⟩ := List.nodup_cons.mp h
      by_cases hkey : key x = k
      · subst hkey
        by_cases hsees : sees x = true
        · simp [hsees]
        · have hothers : ∀ y ∈ rest.filter sees, ¬ (key y == key x) = true := by
            intro y hy heq
            have hmem : key y ∈ rest.map key := List.mem_map_of_mem (List.mem_of_mem_filter hy)
            exact hfresh (beq_iff_eq.mp heq ▸ hmem)
          simp [hsees, List.find?_eq_none.mpr hothers]
      · by_cases hsees : sees x = true
        · simpa [hkey, hsees] using ih hrest
        · simpa [hkey, hsees] using ih hrest

/-- A world in which lookups by identifier are unambiguous. -/
structure World.HasUniqueIds (w : World) : Prop where
  channels : (w.channels.map (·.id)).Nodup
  roles : (w.roles.map (·.id)).Nodup
  emojis : (w.emojis.map (·.id)).Nodup

/-- Two worlds list the same entities of a guild. -/
structure World.AgreesIn (guild : Snowflake) (w w' : World) : Prop where
  members : w.directory.members guild = w'.directory.members guild
  channels : w.directory.channels (.guild guild) = w'.directory.channels (.guild guild)
  roles : w.directory.roles (.guild guild) = w'.directory.roles (.guild guild)
  emojis : w.directory.emojis (.guild guild) = w'.directory.emojis (.guild guild)

namespace World

variable {w w' : World} {guild : Snowflake}

theorem member_eq_find? (w : World) (guild id : Snowflake) :
    w.directory.member guild id = (w.directory.members guild).find? (·.user.id == id) := by
  rw [directory, List.find?_filter]
  refine congrArg (w.members.find? ·) (funext fun m => ?_)
  rw [Bool.eq_iff_iff]
  simp

theorem HasUniqueIds.filter_channel (h : w.HasUniqueIds) (scope : Scope) (id : Snowflake) :
    (w.directory.channel id).filter (scope.contains ·.guild) =
      (w.directory.channels scope).find? (·.id == id) :=
  find?_filter_of_nodup h.channels id _

theorem HasUniqueIds.roleIn_eq (h : w.HasUniqueIds) (scope : Scope) (id : Snowflake) :
    roleIn w.directory scope id = (w.directory.roles scope).find? (·.id == id) :=
  find?_filter_of_nodup h.roles id _

theorem HasUniqueIds.filter_emoji (h : w.HasUniqueIds) (scope : Scope) (id : Snowflake) :
    (w.directory.emoji id).filter (scope.contains ·.guild) =
      (w.directory.emojis scope).find? (·.id == id) :=
  find?_filter_of_nodup h.emojis id _

/-- What is looked up in a guild is one of the entities that are listed there. -/
theorem AgreesIn.lookups (hw : w.HasUniqueIds) (hw' : w'.HasUniqueIds) (h : w.AgreesIn guild w')
    (id : Snowflake) :
    w.directory.member guild id = w'.directory.member guild id ∧
      (w.directory.channel id).filter ((Scope.guild guild).contains ·.guild) =
        (w'.directory.channel id).filter ((Scope.guild guild).contains ·.guild) ∧
      roleIn w.directory (.guild guild) id = roleIn w'.directory (.guild guild) id ∧
      (w.directory.emoji id).filter ((Scope.guild guild).contains ·.guild) =
        (w'.directory.emoji id).filter ((Scope.guild guild).contains ·.guild) := by
  refine ⟨?_, ?_, ?_, ?_⟩
  · rw [member_eq_find?, member_eq_find?, h.members]
  · rw [hw.filter_channel, hw'.filter_channel, h.channels]
  · rw [hw.roleIn_eq, hw'.roleIn_eq, h.roles]
  · rw [hw.filter_emoji, hw'.filter_emoji, h.emojis]

end World

/-- A parameter that looks up what belongs to the guild of the invocation. -/
def Param.isGuildBound (p : Param) : Bool :=
  !p.hasFlag "crossscope" &&
    match p.type with
    | .member | .channel => p.hasFlag "other"
    | .role | .emoji => true
    | _ => false

theorem Param.searches_of_isGuildBound {p : Param} (h : p.isGuildBound = true) :
    p.searches = true := by
  obtain ⟨-, htype⟩ := Bool.and_eq_true_iff.mp h
  unfold searches
  cases htype' : p.type with simp only [htype'] at htype ⊢
  | member | channel => exact htype
  | _ => contradiction

/-! ## What can be found -/

/-- The guild that an entity belongs to. -/
def Value.guild? : Value → Option Snowflake
  | .member m => some m.guild
  | .channel c => c.guild
  | .role r => some r.guild
  | .emoji e => e.guild
  | _ => none

/-- All that can be found in a field belongs to a guild. -/
structure Field.Within (field : Field) (guild : Snowflake) : Prop where
  byId : ∀ id v, field.byId id = some v → v.guild? = some guild
  named : ∀ name, ∀ v ∈ field.named name, v.guild? = some guild
  mentioned : ∀ text v, field.mentioned? text = some (some v) → v.guild? = some guild

namespace Field

variable {pool : Pool} {guild : Snowflake} {kind : Mention.Kind}

theorem within_under
    (hbyId : ∀ id v, pool.byId id = some v → v.guild? = some guild)
    (hnamed : ∀ name, ∀ v ∈ pool.named name, v.guild? = some guild) :
    (under kind pool).Within guild := by
  refine ⟨hbyId, hnamed, ?_⟩
  intro text v h
  obtain ⟨⟨own, lookup⟩, hmem, hread⟩ := List.exists_of_findSome?_eq_some h
  obtain ⟨rfl, rfl⟩ := Prod.mk.inj (List.mem_singleton.mp hmem)
  obtain ⟨id, -, hfound⟩ := Option.map_eq_some_iff.mp hread
  exact hbyId id v hfound

/-- A field within a guild has entities of one sort that are found and listed there. -/
theorem within_under_map {α : Type} {value : α → Value} {lookup : Snowflake → Option α}
    {listing : String → List α}
    (hlookup : ∀ id x, lookup id = some x → (value x).guild? = some guild)
    (hlisting : ∀ name, ∀ x ∈ listing name, (value x).guild? = some guild) :
    (under kind ⟨fun id => (lookup id).map value,
      fun name => (listing name).map value⟩).Within guild := by
  refine within_under (fun id v hv => ?_) fun name v hv => ?_
  · obtain ⟨x, hx, rfl⟩ := Option.map_eq_some_iff.mp hv
    exact hlookup id x hx
  · obtain ⟨x, hx, rfl⟩ := List.mem_map.mp hv
    exact hlisting name x hx

theorem Within.guild?_of_search {field : Field} (h : field.Within guild) {type : ParamType}
    {text : String} {v : Value} (hfound : field.search type text = .found v) :
    v.guild? = some guild := by
  unfold search at hfound
  split at hfound
  next found hmentioned =>
    cases found with
    | none => cases hfound
    | some entity =>
        obtain rfl : entity = v := Search.found.inj hfound
        exact h.mentioned text entity hmentioned
  next =>
    split at hfound
    next entity hentity =>
      obtain rfl : entity = v := Search.found.inj hfound
      obtain ⟨id, -, hid⟩ := Option.bind_eq_some_iff.mp hentity
      exact h.byId id entity hid
    next =>
      refine h.named (type.bareName text) v ?_
      rw [Search.eq_singleton_of_pick hfound]
      exact List.mem_cons_self

end Field

namespace Slot

variable {slot : Slot} {guild : Snowflake} {w w' : World}

theorem scope?_of_isGuildBound (hbound : slot.param.isGuildBound = true) :
    slot.scope? = slot.invocation.localScope := by
  obtain ⟨hlocal, -⟩ := Bool.and_eq_true_iff.mp hbound
  rw [scope?, if_neg (by simpa using hlocal)]

theorem scope?_in_guild (hbound : slot.param.isGuildBound = true)
    (hguild : slot.invocation.guildId = some guild) (directory : Directory) :
    scope? { slot with directory } = some (.guild guild) := by
  have hslot : scope? { slot with directory } = slot.scope? := rfl
  rw [hslot, scope?_of_isGuildBound hbound, Invocation.localScope, hguild]
  rfl

/-- Where a parameter searches that stays in a guild is settled by the entities of the guild. -/
theorem field?_eq_of_agreesIn (hbound : slot.param.isGuildBound = true)
    (hguild : slot.invocation.guildId = some guild) (hw : w.HasUniqueIds) (hw' : w'.HasUniqueIds)
    (h : w.AgreesIn guild w') :
    field? { slot with directory := w.directory } =
      field? { slot with directory := w'.directory } := by
  have hscope := scope?_in_guild hbound hguild
  have hmember := fun id => (h.lookups hw hw' id).1
  have hchannel : ∀ id,
      (w.directory.channel id).filter
          (fun c => (Scope.guild guild).contains c.guild && acceptsKind slot.param c.kind) =
        (w'.directory.channel id).filter
          (fun c => (Scope.guild guild).contains c.guild && acceptsKind slot.param c.kind) := by
    intro id
    rw [← Option.filter_filter, ← Option.filter_filter, (h.lookups hw hw' id).2.1]
  have hrole := fun id => (h.lookups hw hw' id).2.2.1
  have hemoji := fun id => (h.lookups hw hw' id).2.2.2
  cases htype : slot.param.type with
  | member => simp only [field?, pool?, htype, hguild, Option.map_some, hmember, h.members]
  | channel =>
      simp only [field?, pool?, htype, hscope, Option.map_some, hchannel, h.channels]
  | role => simp only [field?, pool?, htype, hscope, Option.map_some, hrole, h.roles]
  | emoji =>
      simp only [field?, htype, hscope, Option.map_some, Field.ofEmojis, hemoji, h.emojis]
  | _ => simp only [Param.isGuildBound, htype, Bool.and_false, Bool.false_eq_true] at hbound

/-- A parameter that stays in a guild finds what belongs to it. -/
theorem within_of_field? (slot : Slot) (hbound : slot.param.isGuildBound = true)
    (hguild : slot.invocation.guildId = some guild) (w : World) {field : Field}
    (hfield : field? { slot with directory := w.directory } = some field) :
    field.Within guild := by
  have hscope := scope?_in_guild hbound hguild
  have hsees : ∀ {owner}, (Scope.guild guild).contains owner = true → owner = some guild :=
    beq_iff_eq.mp
  cases htype : slot.param.type with
  | member =>
      simp only [field?, pool?, htype, hguild, Option.map_some, Option.some.injEq] at hfield
      subst hfield
      refine Field.within_under_map (fun id m hm => ?_) fun name m hm => ?_
      · have hfound : (m.guild == guild && m.user.id == id) = true :=
          List.find?_some (p := fun m : Member => m.guild == guild && m.user.id == id) hm
        exact congrArg some (beq_iff_eq.mp (Bool.and_eq_true_iff.mp hfound).1)
      · have hlisted := (List.mem_filter.mp (List.mem_of_mem_filter hm)).2
        exact congrArg some (beq_iff_eq.mp hlisted)
  | channel =>
      simp only [field?, pool?, htype, hscope, Option.map_some, Option.some.injEq] at hfield
      subst hfield
      refine Field.within_under_map (fun id c hc => ?_) fun name c hc => ?_
      · exact hsees (Bool.and_eq_true_iff.mp (Option.filter_eq_some_iff.mp hc).2).1
      · exact hsees (List.mem_filter.mp (List.mem_of_mem_filter hc)).2
  | role =>
      simp only [field?, pool?, htype, hscope, Option.map_some, Option.some.injEq] at hfield
      subst hfield
      refine Field.within_under_map (fun id r hr => ?_) fun name r hr => ?_
      · exact hsees (Option.filter_eq_some_iff.mp hr).2
      · exact hsees (List.mem_filter.mp (List.mem_of_mem_filter hr)).2
  | emoji =>
      simp only [field?, htype, hscope, Option.map_some, Option.some.injEq] at hfield
      subst hfield
      refine Field.within_under_map (fun id e he => ?_) fun name e he => ?_
      · exact hsees (Option.filter_eq_some_iff.mp he).2
      · exact hsees (List.mem_filter.mp (List.mem_of_mem_filter he)).2
  | _ => simp only [Param.isGuildBound, htype, Bool.and_false, Bool.false_eq_true] at hbound

/-- Outside of all guilds there is nowhere to search. -/
theorem field?_outside_guilds (hbound : slot.param.isGuildBound = true)
    (houtside : slot.invocation.guildId = none) : slot.field? = none := by
  have hscope : slot.scope? = none := by
    rw [scope?_of_isGuildBound hbound, Invocation.localScope, houtside]
    rfl
  cases htype : slot.param.type with
  | member => simp only [field?, pool?, htype, houtside, Option.map_none]
  | channel | role => simp only [field?, pool?, htype, hscope, Option.map_none]
  | emoji => simp only [field?, htype, hscope, Option.map_none]
  | _ => simp only [Param.isGuildBound, htype, Bool.and_false, Bool.false_eq_true] at hbound

end Slot

/-! ## Resolution in a guild and outside of all -/

namespace Environment

open Supply

variable {env : Environment} {invocation : Invocation} {p : Param} {r : Resolver} {isLast : Bool}
  {guild : Snowflake} {w w' : World}

/-- The environment with another world. -/
def inWorld (env : Environment) (w : World) : Environment :=
  { env with directory := w.directory }

theorem run_inWorld_eq (ht : env.resolvers.IsStandard)
    (hr : env.resolvers.find? p.type = some r) (hbound : p.isGuildBound = true)
    (hguild : invocation.guildId = some guild) (hw : w.HasUniqueIds) (hw' : w'.HasUniqueIds)
    (h : w.AgreesIn guild w') (supply : Supply) :
    r.run ((env.inWorld w).slot invocation p isLast) supply =
      r.run ((env.inWorld w').slot invocation p isLast) supply := by
  let slot := env.slot invocation p isLast
  obtain ⟨missing, hreading⟩ :=
    slot.exists_reading_of_searches (Param.searches_of_isGuildBound hbound)
  have hfield : Slot.field? { slot with directory := w.directory } =
      Slot.field? { slot with directory := w'.directory } :=
    Slot.field?_eq_of_agreesIn hbound hguild hw hw' h
  have hjudge : Slot.judgeSearch { slot with directory := w.directory } =
      Slot.judgeSearch { slot with directory := w'.directory } := by
    funext text
    rw [Slot.judgeSearch, Slot.judgeSearch, hfield]
  have hrun : ∀ directory, r.run { slot with directory } supply =
      (Slot.reading { slot with directory }).run { slot with directory } supply :=
    fun directory => ht.run_eq { slot with directory } hr supply
  refine (hrun w.directory).trans (Eq.trans ?_ (hrun w'.directory).symm)
  rw [hreading, hreading, hjudge]
  rfl

theorem checkConditions_inWorld {s : Supply} {v : Value} (uses : List ConditionUse) :
    (env.inWorld w).checkConditions invocation p s v uses =
      env.checkConditions invocation p s v uses := by
  induction uses with
  | nil => rfl
  | cons use rest ih =>
      have hconditions : (env.inWorld w).conditions = env.conditions := rfl
      rw [checkConditions, checkConditions, ih, hconditions]

/-- Conditions do not look at the world. -/
theorem accept_inWorld : (env.inWorld w).accept invocation p = env.accept invocation p := by
  funext ⟨result, s⟩
  cases result with
  | error e => rfl
  | ok v => rw [accept, accept, checkConditions_inWorld]

/-- A parameter is resolved alike where its resolver runs alike. -/
theorem resolveParam_inWorld_eq
    (h : ∀ supply, r.run ((env.inWorld w).slot invocation p isLast) supply =
      r.run ((env.inWorld w').slot invocation p isLast) supply) (input : Input) :
    (env.inWorld w).resolveParam invocation p r isLast input =
      (env.inWorld w').resolveParam invocation p r isLast input := by
  simp only [resolveParam, h, accept_inWorld]
  rfl

/-- A value that a parameter got from input or from its default is the answer of its resolver to
a supply that has a piece. -/
theorem exists_run_of_resolveParam {input after : Input} {v : Value}
    (htakes : r.isIssuerOnly p = false)
    (hpresent : hasInput { input } p.name = true ∨ p.default.isSome = true)
    (h : env.resolveParam invocation p r isLast input = .ok (some (v, after))) :
    ∃ supply rest, supply.hasInput p.name = true ∧
      r.run (env.slot invocation p isLast) supply = (.ok v, rest) := by
  have hneeds : ¬ (hasInput { input } p.name = false ∧ p.default = none) := by
    rintro ⟨hnone, hdefault⟩
    simp [hnone, hdefault] at hpresent
  cases way_of_resolveParam h with
  | absent _ hnone hdefault => exact absurd ⟨hnone, hdefault⟩ hneeds
  | entered hentry haccept =>
      obtain ⟨rest, hrun, -⟩ := accept_eq_some haccept
      cases hentry with
      | issuer hissuer =>
          rw [htakes] at hissuer
          cases hissuer
      | chosen hstart hchosen =>
          exact ⟨_, rest, hasInput_of_applyChoices hstart.hasInput hchosen, hrun⟩
      | bare _ hnone hdefault => exact absurd ⟨hnone, hdefault⟩ hneeds

/-- What a parameter that stays in a guild gets from input belongs to the guild. -/
theorem guild?_of_resolveParam (ht : env.resolvers.IsStandard)
    (hr : env.resolvers.find? p.type = some r) (hbound : p.isGuildBound = true)
    (hguild : invocation.guildId = some guild) {input after : Input} {v : Value}
    (hpresent : hasInput { input } p.name = true ∨ p.default.isSome = true)
    (h : (env.inWorld w).resolveParam invocation p r isLast input = .ok (some (v, after)))
    (hne : v ≠ .absent) : v.guild? = some guild := by
  have ht' : (env.inWorld w).resolvers.IsStandard := ht
  have hsearches := Param.searches_of_isGuildBound hbound
  have htakes := isIssuerOnly_of_searches ht hr hsearches invocation
  obtain ⟨supply, rest, hinput, hrun⟩ := exists_run_of_resolveParam htakes hpresent h
  obtain ⟨piece, behind, hpop⟩ := exists_pop_of_hasInput hinput
  rw [run_of_searches ht' hr hsearches hpop] at hrun
  have hjudged := mapError_eq_ok.mp (congrArg Prod.fst hrun)
  unfold Slot.judgeSearch at hjudged
  split at hjudged
  next field hfield =>
    rcases toValue_eq_ok hjudged with ⟨entity, hfound, rfl⟩ | ⟨-, -, rfl⟩
    · have hwithin := Slot.within_of_field? (env.slot invocation p isLast) hbound hguild w hfield
      exact hwithin.guild?_of_search hfound
    · exact absurd rfl hne
  next => cases hjudged

theorem run_outside_guilds (ht : env.resolvers.IsStandard)
    (hr : env.resolvers.find? p.type = some r) (hbound : p.isGuildBound = true)
    (houtside : invocation.guildId = none) {supply rest : Supply} {piece : Piece}
    (hpop : supply.pop p.name = (some piece, rest)) :
    r.run (env.slot invocation p isLast) supply =
      (.error (rest.refuse p.name (.outOfScope p.type.keyword)), rest) := by
  have hnowhere : (env.slot invocation p isLast).field? = none :=
    Slot.field?_outside_guilds hbound houtside
  rw [run_of_searches ht hr (Param.searches_of_isGuildBound hbound) hpop]
  simp only [Slot.judgeSearch, hnowhere]
  rfl

theorem resolveParam_outside_guilds (ht : env.resolvers.IsStandard)
    (hr : env.resolvers.find? p.type = some r) (hbound : p.isGuildBound = true)
    (houtside : invocation.guildId = none) {input : Input} {start chosen : Supply}
    (hstart : Start env invocation p r input start) (hchosen : applyChoices p start = .ok chosen) :
    ∃ e, env.resolveParam invocation p r isLast input = .error e ∧
      e.cause = .invalidArgument p.name (.outOfScope p.type.keyword) := by
  obtain ⟨piece, rest, hpop⟩ :=
    exists_pop_of_hasInput (hasInput_of_applyChoices hstart.hasInput hchosen)
  refine ⟨rest.refuse p.name (.outOfScope p.type.keyword), ?_, rest.cause_refuse _ _⟩
  rw [hstart.resolveParam_eq, hchosen]
  exact accept_of_error (congrArg Prod.fst (run_outside_guilds ht hr hbound houtside hpop))

/-- A parameter that stays in a guild is resolved alike in two worlds that agree on what belongs to
the guild, and what it gets from input belongs there.  Outside of all guilds it refuses all input
that gets to its resolver. -/
theorem stays_in_guild {enums : List (String × List String)}
    (hresolvers : env.resolvers = .withEnums enums) (hr : env.resolvers.find? p.type = some r)
    (hbound : p.isGuildBound = true) :
    (∀ guild w w', invocation.guildId = some guild → w.HasUniqueIds → w'.HasUniqueIds →
      w.AgreesIn guild w' → ∀ input,
        (env.inWorld w).resolveParam invocation p r isLast input =
          (env.inWorld w').resolveParam invocation p r isLast input) ∧
    (∀ guild w, invocation.guildId = some guild → ∀ input v after,
      (env.inWorld w).resolveParam invocation p r isLast input = .ok (some (v, after)) →
      v ≠ .absent → hasInput { input } p.name = true ∨ p.default.isSome = true →
      v.guild? = some guild) ∧
    (invocation.guildId = none → ∀ w,
      (∀ supply piece rest, supply.pop p.name = (some piece, rest) →
        r.run ((env.inWorld w).slot invocation p isLast) supply =
          (.error (rest.refuse p.name (.outOfScope p.type.keyword)), rest)) ∧
      ∀ input start chosen, Start (env.inWorld w) invocation p r input start →
        applyChoices p start = .ok chosen →
        ∃ e, (env.inWorld w).resolveParam invocation p r isLast input = .error e ∧
          e.cause = .invalidArgument p.name (.outOfScope p.type.keyword)) := by
  have ht : ∀ w, (env.inWorld w).resolvers.IsStandard :=
    fun _ => hresolvers ▸ ResolverTable.isStandard_withEnums enums
  refine ⟨?_, ?_, ?_⟩
  · intro guild w w' hguild hw hw' hagree input
    exact resolveParam_inWorld_eq
      (run_inWorld_eq (ht w) hr hbound hguild hw hw' hagree) input
  · intro guild w hguild input v after hresolved hne hpresent
    exact guild?_of_resolveParam (ht w) hr hbound hguild hpresent hresolved hne
  · intro houtside w
    exact ⟨fun _ _ _ => run_outside_guilds (ht w) hr hbound houtside,
      fun _ _ _ => resolveParam_outside_guilds (ht w) hr hbound houtside⟩

/-- A role of the guild is found by its mention, just as if the role of the same name in another
guild did not exist. -/
theorem stays_in_guild_helpers :
    let helpers : Role := ⟨5, 3, "helpers"⟩
    let alone : World := ⟨[], [], [], [helpers], []⟩
    let crowded : World := ⟨[], [], [], [⟨6, 4, "helpers"⟩, helpers], []⟩
    let resolve (w : World) :=
      (ofWorld w []).resolveParam (within 3) granted (orAbsent .input role) true
        (.text "<@&5>" [⟨"<@&5>", ⟨0, 5⟩⟩])
    resolve alone = .ok (some (.role helpers, .text "<@&5>" [])) ∧
      resolve crowded = resolve alone ∧ (Value.role helpers).guild? = some 3 := by
  intro helpers alone crowded resolve
  have hr : (ofWorld alone []).resolvers.find? granted.type = some (orAbsent .input role) := rfl
  have halone : alone.HasUniqueIds := ⟨by decide, by decide, by decide⟩
  have hcrowded : crowded.HasUniqueIds := ⟨by decide, by decide, by decide⟩
  have hagree : World.AgreesIn 3 crowded alone := ⟨rfl, rfl, rfl, rfl⟩
  have hfound : resolve alone = .ok (some (.role helpers, .text "<@&5>" [])) := rfl
  obtain ⟨hsame, hbelongs, -⟩ :=
    @stays_in_guild (ofWorld alone []) (within 3) granted (orAbsent .input role) true [] rfl hr rfl
  exact ⟨hfound, hsame 3 crowded alone rfl hcrowded halone hagree _,
    hbelongs 3 alone rfl _ _ _ hfound nofun (.inl rfl)⟩

end Environment

end ChatCommands
