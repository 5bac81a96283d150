import ChatCommands.Proofs.Schema.Stages

/-!
# Trees mirror declarations

A layout loses nothing and invents nothing.  Every path of two or three words is shown as
the first command declared with it, with the parameters that take input, and every
subcommand comes from exactly one path.  Commands whose path is the root alone are shown
on the root when nothing else is declared below it, and else add nothing.
-/

namespace ChatCommands.Schema

namespace Vocabulary

variable {v : Vocabulary} {t : Tree} {root : String} {commands : List CommandInfo}
  {groups : List Group}

/-- Below a node hang the parameters of a command that take input, in their order, under
their names and with what is published about them. -/
def ShowsInput (v : Vocabulary) (t : Tree) (i : Nat) (c : CommandInfo) : Prop :=
  List.Forall₂
    (fun child p => child.2.kind = .parameter ∧ child.2.name = p.name ∧
      child.2.properties.get? "required" = some (.bool p.requiresInput) ∧
      child.2.properties.get? "type" = some (.string p.type.optionType.name))
    (t.childrenOf i) (c.params.filter fun p => !v.resolvers.isIssuerOnly p)

/-- The tree of a root shows what is declared for the root, and nothing else. -/
structure Mirrors (v : Vocabulary) (root : String) (commands : List CommandInfo)
    (groups : List Group) (t : Tree) : Prop where
  /-- Every path has at most three words. -/
  depth : ∀ c ∈ commands, c.root = root → c.sub.length ≤ 2
  /-- The words of a longer path lead to the first command declared with it. -/
  shown : ∀ c, commands.find? (·.path == c.path) = some c → c.root = root → c.sub ≠ [] →
    ∃ i n, t.find? c.sub = some i ∧ t.node? i = some n ∧ n.kind = .subcommand ∧
      c.sub.getLast? = some n.name ∧ n.description = c.description ∧ v.ShowsInput t i c
  /-- Every subcommand is reached by the words of exactly one longer path. -/
  declared : ∀ {i n}, t.node? i = some n → n.kind = .subcommand →
    ∃! sub, (∃ c ∈ commands, c.root = root ∧ c.sub = sub ∧ sub ≠ []) ∧ t.find? sub = some i
  /-- Without longer paths and groups, the root shows the first command of its own path. -/
  alone : groupsOf root groups = [] → (∀ c ∈ commands, c.root = root → c.sub = []) →
    ∀ c, commands.find? (·.path == [root]) = some c → v.ShowsInput t t.root c
  /-- With them, parameters hang below subcommands only. -/
  below : groupsOf root groups ≠ [] ∨ (∃ c ∈ commands, c.root = root ∧ c.sub ≠ []) →
    ∀ {i n}, t.node? i = some n → n.kind = .parameter →
      ∃ j m, n.parent = some j ∧ t.node? j = some m ∧ m.kind = .subcommand
  /-- A group is the middle word of a path of three words, in some case. -/
  group : ∀ {i n}, t.node? i = some n → n.kind = .group →
    ∃ c ∈ commands, ∃ word name, c.root = root ∧ c.sub = [word, name] ∧
      Text.asciiEq n.name word = true

theorem shownParams_eq {c : CommandInfo} (h : v.checkCommand c = .ok ()) :
    v.shownParams c = c.params.filter fun p => !v.resolvers.isIssuerOnly p :=
  filter_isShown (checkParams_of_checkCommand h)

theorem Shows.forall₂ {i : Nat} {params : List Param} (hs : v.Shows t i params) :
    List.Forall₂ (fun child p => child.2 = v.parameterNode i p) (t.childrenOf i) params := by
  have heq : List.Forall₂ (· = ·) ((t.childrenOf i).map (·.2)) (params.map (v.parameterNode i)) :=
    List.forall₂_eq_eq_eq ▸ hs
  rwa [List.forall₂_map_left_iff, List.forall₂_map_right_iff] at heq

theorem Shows.showsInput {i : Nat} {c : CommandInfo} (hs : v.Shows t i (v.shownParams c))
    (hc : v.checkCommand c = .ok ()) : v.ShowsInput t i c := by
  have hall := hs.forall₂
  rw [shownParams_eq hc] at hall
  refine hall.imp ?_
  rintro child p heq
  rw [heq]
  exact ⟨rfl, rfl, get?_required v.resolvers p, get?_type v.resolvers p⟩

/-- Whatever commands and groups there are, a tree that is laid out for a root mirrors what
is declared for it. -/
theorem mirrors_layout (h : v.layout root commands groups = .ok t) :
    v.Mirrors root commands groups t := by
  obtain ⟨hchecked, -, -, -, hlimits⟩ := layout_eq_ok h
  have hcheck : ∀ c ∈ commands, c.root = root → v.checkCommand c = .ok () :=
    fun c hc hroot => checkCommand_of_layout h hc hroot
  constructor
  case depth => exact fun c hc hroot => length_le_of_checkCommand (hcheck c hc hroot)
  case shown =>
    intro c hfirst hroot hne
    have hc := List.mem_of_find?_eq_some hfirst
    obtain ⟨i, n, hfind, hn, hshows, hsub⟩ :=
      exists_shows_of_published h ⟨hfirst, hroot, fun hempty => absurd hempty hne⟩
    obtain ⟨hkind, hname, hdescription⟩ := hsub hne
    exact ⟨i, n, hfind, hn, hkind, hname, hdescription, hshows.showsInput (hcheck c hc hroot)⟩
  case declared =>
    intro i n hn hkind
    obtain ⟨c, hc, hne, hfind⟩ := published_of_subcommand h hn hkind
    refine ⟨c.sub, ⟨⟨c, List.mem_of_find?_eq_some hc.first, hc.root_eq, rfl, hne⟩, hfind⟩, ?_⟩
    rintro sub ⟨⟨d, hd, hroot, rfl, hne'⟩, hfind'⟩
    obtain ⟨e, he, hsame⟩ := exists_published groups hd hroot hne'
    rw [← hsame] at hfind' hne' ⊢
    rw [eq_of_find? h he hc hne' hne hfind' hfind]
  case alone =>
    intro hgroups halone c hfind
    have hpath : c.path = [root] := by simpa using List.find?_some hfind
    obtain ⟨hroot, hsub⟩ := List.cons.inj hpath
    have hc := List.mem_of_find?_eq_some hfind
    have hpublished : Published root commands groups c :=
      ⟨hpath ▸ hfind, hroot, fun _ => ⟨hgroups, halone⟩⟩
    obtain ⟨i, n, hfound, -, hshows, -⟩ := exists_shows_of_published h hpublished
    rw [hsub] at hfound
    obtain rfl : t.root = i := Option.some.inj hfound
    exact hshows.showsInput (hcheck c hc hroot)
  case below =>
    intro hother i n hn hkind
    obtain ⟨c, j, p, hc, hfind, -, rfl⟩ := published_of_parameter h hn hkind
    have hne : c.sub ≠ [] := by
      intro hempty
      obtain ⟨hgroups, halone⟩ := hc.alone hempty
      rcases hother with hsome | ⟨d, hd, hroot, hne⟩
      · exact hsome hgroups
      · exact hne (halone d hd hroot)
    obtain ⟨k, m, hfound, hm, -, hsub⟩ := exists_shows_of_published h hc
    obtain rfl : k = j := Option.some.inj (hfound.symm.trans hfind)
    exact ⟨k, m, rfl, hm, (hsub hne).1⟩
  case group =>
    intro i n hn hkind
    have hplaced := placed_layout h (showsBare_eq_false h hn (.inr hkind))
    obtain ⟨child, hchild, hsub⟩ := hplaced.grown.exists_subcommand hlimits hn hkind
    obtain ⟨hm, -⟩ := hplaced.grown.linked.mem_childrenOf_iff.mp hchild
    obtain ⟨c, hc, hleads⟩ := hplaced.sound hm hsub
    have hspot := hleads.spot hplaced.grown.linked hchild
    obtain ⟨word, hwords, hnamed⟩ := hplaced.exists_words (hplaced.group hn hkind).1 hspot
    obtain ⟨hmem, hcroot⟩ := List.mem_filter.mp (mem_of_mem_firstOfEachPath hc)
    exact ⟨c, hmem, word, child.2.name, by simpa using hcroot, hwords, hnamed⟩

/-- An overload that is not shown, a command of the root beside others, a group with two
subcommands, and a parameter that the issuer settles. -/
theorem mirrors_role :
    let info (sub : List String) (params : List Param) : CommandInfo :=
      ⟨"role", sub, params, "Roles", "", Dict.empty⟩
    let param (name : String) (type : ParamType) (optional : Bool) : Param :=
      ⟨name, type, optional, none, Dict.empty, Dict.empty, [], [], none, none, none, none, none⟩
    let v : Vocabulary := ⟨.standard, .standard⟩
    let commands : List CommandInfo :=
      [info [] [param "who" .role false],
       info ["color", "set"] [param "here" .guild false, param "role" .role false],
       info ["give"] [param "role" .role false, param "why" .strings true],
       info ["color", "drop"] [],
       info ["give"] [param "role" .string false]]
    let groups : List Group := [⟨["role", "color"], "Colors", []⟩]
    ∃ t, v.layout "role" commands groups = .ok t ∧ v.Mirrors "role" commands groups t := by
  intro info param v commands groups
  have hok : (v.layout "role" commands groups).isOk = true := by decide +kernel
  obtain ⟨t, h⟩ := exists_eq_ok hok
  exact ⟨t, h, mirrors_layout h⟩

end Vocabulary

end ChatCommands.Schema
