import ChatCommands.Proofs.Resolve.ChannelKinds
import ChatCommands.Proofs.Resolve.TypedEntity
import ChatCommands.Proofs.Schema.Shape

/-!
# Channel types on offer

The platform lets a user pick a channel of the types that are published with a parameter, or any
channel when none are published.  A list of kinds is published without the entries that name no
kind, and not at all if nothing is left of it.  The resolver reads the same list and then takes
no channel.  Apart from such a list, the channels that can be picked are those that are taken.
-/

namespace ChatCommands

open Resolve Schema

theorem ChannelKind.code_injective : Function.Injective ChannelKind.code := by
  intro a b h
  cases a <;> cases b <;> first | rfl | contradiction

theorem ChannelKind.mem_codes_iff {kind : ChannelKind} {kinds : List ChannelKind} :
    Json.integer kind.code ∈ kinds.map (fun kind => .integer kind.code) ↔ kind ∈ kinds := by
  refine List.mem_map_of_injective fun a b h => ?_
  exact code_injective (Int.ofNat.inj (Json.integer.inj h))

/-- No channel types are published, or that of the kind is among them. -/
def Schema.Properties.ShowsKind (properties : Properties) (kind : ChannelKind) : Prop :=
  properties.get? "channel_types" = none ∨
    ∃ codes, properties.get? "channel_types" = some (.array codes) ∧ .integer kind.code ∈ codes

/-- The list of kinds of a parameter names no kind at all. -/
def Param.ListsNoKind (p : Param) : Prop :=
  ∃ kinds, p.flag "kinds" = some kinds ∧ ∀ kind, ¬ ChannelKind.Listed kinds kind

variable {p : Param} {kind : ChannelKind}

theorem Param.ListsNoKind.acceptsKind_eq_false (h : p.ListsNoKind) (kind : ChannelKind) :
    acceptsKind p kind = false := by
  obtain ⟨kinds, hkinds, hnone⟩ := h
  rw [Bool.eq_false_iff]
  exact fun haccepts => hnone kind ((acceptsKind_iff hkinds kind).mp haccepts)

theorem listsNoKind_iff {kinds : String} (hkinds : p.flag "kinds" = some kinds) :
    p.ListsNoKind ↔ ChannelKind.readList kinds = [] := by
  simp [Param.ListsNoKind, hkinds, ← ChannelKind.mem_readList_iff, List.eq_nil_iff_forall_not_mem]

/-- A kind is shown if the parameter accepts it, or if its list names no kind. -/
theorem showsKind_iff (table : ResolverTable) :
    (parameterProperties table p).ShowsKind kind ↔ acceptsKind p kind = true ∨ p.ListsNoKind := by
  rw [Properties.ShowsKind, get?_channel_types]
  cases hkinds : p.flag "kinds" with
  | none =>
      have hfree : acceptsKind p kind = true := by rw [acceptsKind, hkinds]
      have hhidden : channelTypes p = none := by
        rw [channelTypes, hkinds]
        rfl
      exact iff_of_true (.inl hhidden) (.inl hfree)
  | some kinds =>
      rw [acceptsKind_iff hkinds, ← ChannelKind.mem_readList_iff, listsNoKind_iff hkinds,
        channelTypes, hkinds, Option.map_some, Option.getD_some]
      cases ChannelKind.readList kinds with
      | nil => simp
      | cons first rest =>
          simp only [reduceCtorEq, false_or, or_false, Option.some.injEq, Json.array.injEq,
            exists_eq_left', ChannelKind.mem_codes_iff]

/-! ## A channel that is given by its identifier -/

/-- A channel that can be seen is what its identifier leads to exactly when its kind is
accepted. -/
theorem Slot.judgeChannel_text_iff {slot : Slot} {scope : Scope} {id : Snowflake} {c : Channel}
    (hscope : slot.scope? = some scope) (hchannel : slot.directory.channel id = some c)
    (hsees : scope.contains c.guild = true) :
    judgeChannel slot id.text = .ok (.channel c) ↔ acceptsKind slot.param c.kind = true := by
  refine ⟨acceptsKind_of_judgeChannel, fun haccepts => ?_⟩
  have hbyId : (slot.directory.channel id).filter
      (fun c => scope.contains c.guild && acceptsKind slot.param c.kind) = some c := by
    rw [hchannel, Option.filter_some, hsees, haccepts]
    rfl
  have hsearched : searchScope slot "channel" = .ok scope := by rw [searchScope_eq, hscope]
  refine bind_eq_ok.mpr ⟨scope, hsearched, ?_⟩
  simp only [id.mentionChannel?_text, search, Snowflake.read?_text, Option.bind_some, hbyId]
  rfl

namespace Environment

variable {env : Environment} {invocation : Invocation} {isLast : Bool} {input : Input}
  {option : TypedOption} {id : Snowflake} {scope : Scope} {c : Channel}

/-- A channel of those that a parameter may see is accepted as an option exactly when its type is
on offer, unless the list of kinds of the parameter names no kind. -/
theorem accepted_iff_shown_iff {enums : List (String × List String)}
    (hresolvers : env.resolvers = .withEnums enums) (htype : p.type = .channel)
    (hother : p.hasFlag "other" = true) (hoffers : input.Offers p.name option)
    (hvalue : option.value = .channel id)
    (hscope : (env.slot invocation p isLast).scope? = some scope)
    (hchannel : env.directory.channel id = some c) (hsees : scope.contains c.guild = true) :
    ∃ r, env.resolvers.find? p.type = some r ∧
      (((r.run (env.slot invocation p isLast) { input }).1 = .ok (.channel c) ↔
          (parameterProperties env.resolvers p).ShowsKind c.kind) ↔
        ¬ p.ListsNoKind) := by
  have ht : env.resolvers.IsStandard := hresolvers ▸ ResolverTable.isStandard_withEnums enums
  have hr : env.resolvers.find? p.type = some (orAbsent .issuerUnlessOther channel) :=
    htype ▸ ht.find?_of_standard? rfl
  obtain ⟨rest, hpop⟩ := pop_of_offers hoffers
  rw [hvalue] at hpop
  have hsearches : p.searches = true := by rw [Param.searches, htype, hother]
  have hjudged := Slot.judgeChannel_text_iff hscope hchannel hsees
  rw [Slot.judgeChannel_eq htype] at hjudged
  have hrun : ((orAbsent .issuerUnlessOther channel).run (env.slot invocation p isLast)
      { input }).1 = .ok (.channel c) ↔ acceptsKind p c.kind = true := by
    rw [run_of_searches ht hr hsearches hpop]
    simp only [Piece.text, OptionValue.text, id.trim_text, Slot.settle, mapError_eq_ok, hjudged]
    rfl
  refine ⟨_, hr, ?_⟩
  rw [hrun, showsKind_iff]
  constructor
  · intro hagree hnone
    rw [hnone.acceptsKind_eq_false c.kind] at hagree
    exact Bool.false_ne_true (hagree.mpr (.inr hnone))
  · exact fun hsome => (or_iff_left hsome).symm

/-- A channel that is looked up, out of a list of kinds. -/
def call (kinds : String) : Param :=
  ⟨"where", .channel, false, none, Dict.ofList [("other", ""), ("kinds", kinds)], Dict.empty, [],
    [], none, none, none, none, none⟩

/-- The draft of the channel. -/
def callDraft (kinds : String) : ParamDraft where
  name := "where"
  type := .channel
  flags := ["other,kinds=" ++ kinds]

/-- A channel as an option. -/
def byId (id : Snowflake) : TypedOption :=
  ⟨"where", .channel id⟩

/-- Besides an entry that names no kind, the list names the kind of the channel. -/
theorem accepted_call :
    let p := call "voice|lounge"
    p.IsDeclared ∧ p.type = .channel ∧ p.hasFlag "other" = true ∧
      (Input.options [byId 4]).Offers p.name (byId 4) ∧
      ∃ r, twoLobbies.resolvers.find? p.type = some r ∧
        (r.run (twoLobbies.slot (within 3) p true) { input := .options [byId 4] }).1 =
          .ok (.channel ⟨4, some 3, "lobby", .voice⟩) ∧
        (parameterProperties twoLobbies.resolvers p).ShowsKind .voice := by
  intro p
  have hoffers : (Input.options [byId 4]).Offers p.name (byId 4) :=
    Input.offers_own (byId 4).value []
  have hresolvers : twoLobbies.resolvers = .withEnums [] := rfl
  have hscope : (twoLobbies.slot (within 3) p true).scope? = some (.guild 3) := rfl
  have hchannel : twoLobbies.directory.channel 4 = some ⟨4, some 3, "lobby", .voice⟩ := rfl
  obtain ⟨r, hr, hagree⟩ :=
    accepted_iff_shown_iff hresolvers rfl rfl hoffers rfl hscope hchannel rfl
  have hlisted : ChannelKind.Listed "voice|lounge" .voice := by decide
  have hsome : ¬ p.ListsNoKind := by
    rintro ⟨kinds, hkinds, hnone⟩
    obtain rfl : "voice|lounge" = kinds := Option.some.inj hkinds
    exact hnone .voice hlisted
  have hshown : (parameterProperties twoLobbies.resolvers p).ShowsKind .voice :=
    (showsKind_iff _).mpr (.inl ((acceptsKind_iff rfl .voice).mpr hlisted))
  exact ⟨⟨callDraft "voice|lounge", rfl⟩, rfl, rfl, hoffers, r, hr, (hagree.mpr hsome).mpr hshown,
    hshown⟩

theorem listsNoKind_lounge : (call "lounge").ListsNoKind := by
  have hempty : ChannelKind.readList "lounge" = [] := by decide
  exact (listsNoKind_iff rfl).mpr hempty

/-- A list of one entry that names no kind is not published, so that every channel is on offer,
and every channel is refused. -/
theorem not_accepted_call :
    let p := call "lounge"
    let slot := twoLobbies.slot (within 3) p true
    let rest : Supply := { input := .options [] }
    p.IsDeclared ∧ p.type = .channel ∧ p.hasFlag "other" = true ∧
      (Input.options [byId 2]).Offers p.name (byId 2) ∧
      slot.scope? = some (.guild 3) ∧
      slot.directory.channel 2 = some ⟨2, some 3, "lobby", .text⟩ ∧
      (parameterProperties twoLobbies.resolvers p).ShowsKind .text ∧
      channel slot { input := .options [byId 2] } =
        (.error (rest.refuse "where" (.notFound "channel" "2")), rest) :=
  ⟨⟨callDraft "lounge", rfl⟩, rfl, rfl, Input.offers_own (byId 2).value [], rfl, rfl,
    (showsKind_iff _).mpr (.inr listsNoKind_lounge), rfl⟩

end Environment

end ChatCommands
