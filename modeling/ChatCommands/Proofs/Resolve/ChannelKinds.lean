import ChatCommands.Proofs.Param.Declared
import ChatCommands.Proofs.Resolve.Parameter
import ChatCommands.Proofs.Resolve.Search

/-!
# Kinds of channels

A channel parameter may list the kinds that it takes, and every search keeps to the list.  The
channel of the invocation is taken as it is, though: by a parameter that searches for nothing,
and by one that stands in for itself where there is no input.  So a channel of a kind that is
not listed comes out exactly on these two ways, when the invocation is in such a channel.
-/

namespace ChatCommands

open Resolve

/-! ## Lists of kinds -/

namespace ChannelKind

/-- One of the entries between the bars names a kind. -/
def Listed (kinds : String) (kind : ChannelKind) : Prop :=
  ∃ entry ∈ Text.splitOn '|' kinds, read? entry = some kind

variable {kinds : String} {kind : ChannelKind}

theorem mem_readList_iff : kind ∈ readList kinds ↔ Listed kinds kind :=
  List.mem_filterMap

instance : Decidable (Listed kinds kind) :=
  decidable_of_iff _ mem_readList_iff

end ChannelKind

namespace Resolve

theorem acceptsKind_iff {p : Param} {kinds : String} (hkinds : p.flag "kinds" = some kinds)
    (kind : ChannelKind) : acceptsKind p kind = true ↔ ChannelKind.Listed kinds kind := by
  rw [acceptsKind, hkinds, List.contains_iff_mem, ChannelKind.mem_readList_iff]

/-! ## What a search finds -/

section Found

variable {α : Type} {mentioned : Option Snowflake} {text : String} {byId : Snowflake → Option α}
  {named : List α} {label : α → String} {entity : α}

/-- What is found was looked up by an identifier, or listed under the name. -/
theorem byId_or_mem_of_search (h : search mentioned text byId named label = .found entity) :
    (∃ id, byId id = some entity) ∨ entity ∈ named := by
  unfold search at h
  split at h
  next id =>
    cases hid : byId id with
    | none => rw [hid] at h; cases h
    | some found =>
        rw [hid] at h
        exact .inl ⟨id, Search.found.inj h ▸ hid⟩
  next =>
    split at h
    next found hfound =>
      obtain ⟨id, -, hid⟩ := Option.bind_eq_some_iff.mp hfound
      exact .inl ⟨id, Search.found.inj h ▸ hid⟩
    next =>
      rw [Search.eq_singleton_of_pick h]
      exact .inr List.mem_cons_self

end Found

/-- Every way of searching for a channel checks its kind. -/
theorem acceptsKind_of_judgeChannel {slot : Slot} {text : String} {c : Channel}
    (h : judgeChannel slot text = .ok (.channel c)) : acceptsKind slot.param c.kind = true := by
  obtain ⟨scope, -, h⟩ := bind_eq_ok.mp h
  rcases toValue_eq_ok h with ⟨found, hsearch, hvalue⟩ | ⟨-, -, habsent⟩
  · obtain rfl := Value.channel.inj hvalue
    rcases byId_or_mem_of_search hsearch with ⟨id, hid⟩ | hnamed
    · exact (Bool.and_eq_true_iff.mp (Option.filter_eq_some_iff.mp hid).2).2
    · exact (Bool.and_eq_true_iff.mp (List.mem_filter.mp hnamed).2).2
  · cases habsent

end Resolve

/-! ## The channel of the invocation -/

namespace Slot

variable {slot : Slot} {supply : Supply} {kinds : String} {c : Channel}

/-- A channel parameter takes the channel of the invocation as it is: it searches for nothing, or
it stands in for itself and there is no input. -/
def TakesOwnChannel (slot : Slot) (supply : Supply) : Prop :=
  slot.param.hasFlag "other" = false ∨
    slot.param.hasFlag "defaultself" = true ∧ supply.hasInput slot.param.name = false

theorem channel_of_takesOwnChannel (h : slot.TakesOwnChannel supply) :
    ∃ rest, channel slot supply = (.ok (.channel slot.invocation.channel), rest) := by
  by_cases hother : slot.param.hasFlag "other" = true
  · obtain ⟨hself, hempty⟩ := h.resolve_left (by simp [hother])
    rw [← Supply.pop_fst_isSome, Option.isSome_eq_false_iff, Option.isNone_iff_eq_none] at hempty
    obtain ⟨rest, hpop⟩ : ∃ rest, supply.pop slot.param.name = (none, rest) :=
      ⟨_, Prod.ext hempty rfl⟩
    refine ⟨rest, ?_⟩
    rw [channel, if_pos hother, withPiece, hpop, absentOr, if_pos hself]
    rfl
  · exact ⟨supply, by rw [channel, if_neg hother]⟩

/-- A channel that is not taken over was searched for. -/
theorem exists_judgeChannel_of_channel {rest : Supply} (h : ¬ slot.TakesOwnChannel supply)
    (hchannel : channel slot supply = (.ok (.channel c), rest)) :
    ∃ text, judgeChannel slot text = .ok (.channel c) := by
  have hother : slot.param.hasFlag "other" = true :=
    Bool.of_not_eq_false fun hother => h (.inl hother)
  rw [channel, if_pos hother, withPiece] at hchannel
  split at hchannel
  next left hpop =>
    have hempty : supply.hasInput slot.param.name = false := by
      rw [← Supply.pop_fst_isSome, hpop]
      rfl
    have hself : ¬ slot.param.hasFlag "defaultself" = true := fun hself => h (.inr ⟨hself, hempty⟩)
    rw [absentOr, if_neg hself] at hchannel
    cases hchannel
  next piece left hpop =>
    exact ⟨_, mapError_eq_ok.mp (congrArg Prod.fst hchannel)⟩

/-- A list of kinds holds for every channel that comes out, unless the parameter takes the channel
of the invocation as it is and the kind of that one is not listed. -/
theorem channel_listed_iff (hkinds : slot.param.flag "kinds" = some kinds) (supply : Supply) :
    (∀ c rest, channel slot supply = (.ok (.channel c), rest) →
        ChannelKind.Listed kinds c.kind) ↔
      ¬ (slot.TakesOwnChannel supply ∧
        ¬ ChannelKind.Listed kinds slot.invocation.channel.kind) := by
  constructor
  · rintro hlisted ⟨hown, hunlisted⟩
    obtain ⟨rest, hchannel⟩ := channel_of_takesOwnChannel hown
    exact hunlisted (hlisted _ rest hchannel)
  · intro hnot c rest hchannel
    by_cases hown : slot.TakesOwnChannel supply
    · obtain ⟨rest', hown'⟩ := channel_of_takesOwnChannel hown
      have hpair := hown'.symm.trans hchannel
      obtain rfl : slot.invocation.channel = c :=
        Value.channel.inj (Except.ok.inj (Prod.mk.inj hpair).1)
      exact not_not.mp fun hunlisted => hnot ⟨hown, hunlisted⟩
    · obtain ⟨text, hjudged⟩ := exists_judgeChannel_of_channel hown hchannel
      exact (acceptsKind_iff hkinds c.kind).mp (acceptsKind_of_judgeChannel hjudged)

end Slot

namespace Environment

/-- An optional channel to talk in, which the channel of the invocation stands in for. -/
def talk : Param :=
  ⟨"where", .channel, true, none,
    Dict.ofList [("other", ""), ("defaultself", ""), ("kinds", "voice")], Dict.empty, [], [], none,
    none, none, none, none⟩

/-- The draft of the channel to talk in. -/
def talkDraft : ParamDraft where
  name := "where"
  type := .channel
  optional := true
  flags := ["other,defaultself,kinds=voice"]

theorem isDeclared_talk : talk.IsDeclared :=
  ⟨talkDraft, rfl⟩

/-- A guild with two channels of one name, of which one is for talking. -/
def twoLobbies : Environment :=
  ofWorld ⟨[], [], [⟨2, some 3, "lobby", .text⟩, ⟨4, some 3, "lobby", .voice⟩], [], []⟩ []

/-- By its name, only the channel for talking is found. -/
theorem channel_listed_talk :
    let slot := twoLobbies.slot (within 3) talk true
    let supply : Supply := { input := .text "lobby" [⟨"lobby", ⟨0, 5⟩⟩] }
    talk.IsDeclared ∧ slot.param.flag "kinds" = some "voice" ∧
      (channel slot supply).1 = .ok (.channel ⟨4, some 3, "lobby", .voice⟩) ∧
      ∀ c rest, channel slot supply = (.ok (.channel c), rest) →
        ChannelKind.Listed "voice" c.kind := by
  intro slot supply
  have hsearched : ¬ (slot.TakesOwnChannel supply ∧
      ¬ ChannelKind.Listed "voice" slot.invocation.channel.kind) := by
    rintro ⟨hother | ⟨-, hempty⟩, -⟩
    · cases hother
    · cases hempty
  exact ⟨isDeclared_talk, rfl, rfl, (Slot.channel_listed_iff rfl supply).mpr hsearched⟩

/-- Without input, the channel of the invocation stands in, which is not for talking. -/
theorem not_channel_listed_talk :
    let slot := twoLobbies.slot (within 3) talk true
    let supply : Supply := { input := .text "" [] }
    talk.IsDeclared ∧ talk.type = .channel ∧ talk.flag "kinds" = some "voice" ∧
      ChannelKind.Listed "voice" .voice ∧
      channel slot supply = (.ok (.channel ⟨2, some 3, "lobby", .text⟩), supply) ∧
      ¬ ChannelKind.Listed "voice" .text :=
  ⟨isDeclared_talk, rfl, rfl, by decide, rfl, by decide⟩

end Environment

end ChatCommands
