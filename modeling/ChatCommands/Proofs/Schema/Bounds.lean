import ChatCommands.Resolve.Standard
import ChatCommands.Schema.Payload
import ChatCommands.Proofs.Schema.Stages

/-!
# Trees within the limits

Names, descriptions and numbers of children keep the limits of the platform, in every tree
that is laid out and in its payload.  Choices keep them when they are declared with the
parameter.  Those that come from an enumeration are published without being counted, and
so they keep the limit exactly when the enumeration does.
-/

namespace ChatCommands

theorem Dict.get?_erase_of_ne {α : Type} (d : Dict α) {key other : String} (h : other ≠ key) :
    (d.erase key).get? other = d.get? other := by
  rw [get?, get?, erase, List.find?_filter]
  congr 1
  refine List.find?_congr fun entry _ => ?_
  by_cases hentry : entry.1 = other
  · simp [hentry, h]
  · simp [hentry]

namespace Schema

/-! ## What is limited -/

/-- What the limits are about. -/
structure Extent where
  name : String
  description : String
  children : Nat
  choices : Option Json

namespace Extent

/-- Names, descriptions and numbers of children that the platform takes. -/
structure Sized (e : Extent) : Prop where
  name : 1 ≤ e.name.length ∧ e.name.length ≤ 32
  description : 1 ≤ e.description.length ∧ e.description.length ≤ 100
  children : e.children ≤ 25

/-- Choices, if there are any, that are not too many for the platform. -/
def FewChoices (e : Extent) : Prop :=
  ∀ value, e.choices = some value → ∃ entries, value = .array entries ∧ entries.length ≤ 25

end Extent

def Node.extent (n : Node) : Extent :=
  ⟨n.name, n.description, n.children.length, n.properties.get? "choices"⟩

def Payload.extent (p : Payload) : Extent :=
  ⟨p.name, p.description, p.options.length, p.constraints.get? "choices"⟩

/-- A payload is another one or hangs somewhere below it. -/
inductive Payload.Within (p : Payload) : Payload → Prop
  | refl : Within p p
  | option {q o : Payload} (hangs : o ∈ q.options) (within : Within p o) : Within p q

/-- What holds of every node of a tree and of its payload. -/
def Tree.Everywhere (t : Tree) (P : Extent → Prop) : Prop :=
  (∀ {i n}, t.node? i = some n → P n.extent) ∧ ∀ {p : Payload}, p.Within t.payload → P p.extent

/-! ## Payloads -/

theorem Node.options_payload (n : Node) (options : List Payload) :
    (n.payload options).options = options := by
  unfold Node.payload
  split
  · rfl
  · rfl

theorem Node.extent_payload {n : Node} {options : List Payload}
    (h : options.length = n.children.length) : (n.payload options).extent = n.extent := by
  rw [Payload.extent, Node.options_payload, h]
  unfold Node.payload
  split
  · rw [Node.extent, ← Dict.get?_erase_of_ne n.properties (by decide : "choices" ≠ "type")]
    rfl
  · rfl

namespace Tree

variable {t : Tree}

theorem payloadFrom_succ {fuel i : Nat} {n : Node} (hn : t.node? i = some n) :
    t.payloadFrom (fuel + 1) i =
      n.payload ((t.childrenOf i).map fun child => t.payloadFrom fuel child.1) := by
  rw [payloadFrom, hn]

/-- Every part of a payload says what some node says. -/
theorem IsLinked.exists_extent_eq (ht : t.IsLinked) {fuel i : Nat} {n : Node}
    (hn : t.node? i = some n) (hfuel : t.size < fuel + i) {p : Payload}
    (hp : p.Within (t.payloadFrom fuel i)) : ∃ j m, t.node? j = some m ∧ p.extent = m.extent := by
  -- Children have greater numbers than their parents, so that the steps do not run out.
  induction fuel generalizing i n with
  | zero =>
      have hi := lt_size_of_node? hn
      omega
  | succ fuel ih =>
      rw [payloadFrom_succ hn] at hp
      generalize hq : n.payload ((t.childrenOf i).map _) = q at hp
      cases hp with
      | refl =>
          refine ⟨i, n, hn, ?_⟩
          rw [← hq, Node.extent_payload]
          rw [List.length_map, ← ht.map_fst_childrenOf hn, List.length_map]
      | option hangs within =>
          rw [← hq, Node.options_payload] at hangs
          obtain ⟨⟨c, m⟩, hchild, rfl⟩ := List.mem_map.mp hangs
          obtain ⟨hm, hparent⟩ := ht.mem_childrenOf_iff.mp hchild
          have hlater := ht.lt_of_parent hm hparent
          exact ih hm (by omega) within

/-- What holds of the nodes of a tree holds of its payload. -/
theorem IsLinked.everywhere_iff (ht : t.IsLinked) {P : Extent → Prop} :
    t.Everywhere P ↔ ∀ {i n}, t.node? i = some n → P n.extent := by
  refine ⟨fun h => h.1, fun h => ⟨h, ?_⟩⟩
  intro p hp
  obtain ⟨j, m, hm, heq⟩ := ht.exists_extent_eq t.node?_root (by omega) hp
  exact heq ▸ h hm

end Tree

/-! ## Checked nodes -/

theorem checkName_eq_ok_iff {name : String} :
    checkName name = .ok () ↔ 1 ≤ name.length ∧ name.length ≤ 32 := by
  have hcheck : checkName name = .ok () ↔ ¬ (name.length = 0 ∨ 32 < name.length) := ite_throw_eq_ok
  rw [hcheck]
  omega

theorem checkDescription_eq_ok_iff {name description : String} :
    checkDescription name description = .ok () ↔
      1 ≤ description.length ∧ description.length ≤ 100 := by
  have hcheck : checkDescription name description = .ok () ↔
      ¬ (description.length = 0 ∨ 100 < description.length) := ite_throw_eq_ok
  rw [hcheck]
  omega

theorem checkChoices_eq_ok_iff {parameter : String} {count : Nat} :
    checkChoices parameter count = .ok () ↔ count ≤ 25 := by
  have hcheck : checkChoices parameter count = .ok () ↔ ¬ 25 < count := ite_throw_eq_ok
  rw [hcheck, Nat.not_lt]

namespace Tree

variable {t : Tree}

/-- A tree passes the check exactly when every node keeps the limits and every group has
something below it. -/
theorem check_eq_ok_iff :
    t.check = .ok () ↔
      ∀ {i n}, t.node? i = some n → n.extent.Sized ∧ (n.kind = .group → n.children ≠ []) := by
  have hone : ∀ {i n}, t.checkNode i n = .ok () ↔
      n.extent.Sized ∧ (n.kind = .group → n.children ≠ []) := by
    intro i n
    rw [checkNode_eq_ok_iff, checkName_eq_ok_iff, checkDescription_eq_ok_iff]
    constructor
    · rintro ⟨hname, hdescription, hchildren, hgroup⟩
      exact ⟨⟨hname, hdescription, hchildren⟩, fun hkind hnone => hgroup ⟨hkind, hnone⟩⟩
    · rintro ⟨⟨hname, hdescription, hchildren⟩, hgroup⟩
      exact ⟨hname, hdescription, hchildren, fun ⟨hkind, hnone⟩ => hgroup hkind hnone⟩
  constructor
  · intro h i n hn
    exact hone.mp (checkNode_of_check h hn)
  · intro h
    rw [check, forM_eq_ok]
    rintro ⟨n, i⟩ hmem
    exact hone.mpr (h (List.mem_zipIdx_iff_getElem?.mp hmem))

end Tree

/-! ## Choices -/

/-- A parameter without choices of its own does not offer an enumeration of more members
than the platform takes. -/
def OffersFew (table : ResolverTable) (p : Param) : Prop :=
  p.choices = [] → ∀ name members, p.type = .named name → table.members? name = some members →
    members.length ≤ 25

theorem length_offeredChoices_le_iff {table : ResolverTable} {p : Param}
    (h : p.choices.length ≤ 25) :
    (offeredChoices table p).length ≤ 25 ↔ OffersFew table p := by
  unfold offeredChoices OffersFew
  split
  next hempty =>
    have hnone : p.choices = [] := by simpa using hempty
    split
    next name htype =>
      cases hmembers : table.members? name with
      | none =>
          refine ⟨fun _ _ other members hother hsome => ?_, fun _ => by simp⟩
          obtain rfl : name = other := ParamType.named.inj (htype.symm.trans hother)
          rw [hmembers] at hsome
          cases hsome
      | some members =>
          rw [Option.getD_some, List.length_map]
          constructor
          · intro hlength _ other members' hother hsome
            obtain rfl : name = other := ParamType.named.inj (htype.symm.trans hother)
            obtain rfl : members = members' := Option.some.inj (hmembers.symm.trans hsome)
            exact hlength
          · exact fun hoffers => hoffers hnone name members htype hmembers
    next hother =>
      refine ⟨fun _ _ name members htype => absurd htype (hother name), fun _ => by simp⟩
  next hsome =>
    have hne : p.choices ≠ [] := by simpa using hsome
    exact ⟨fun _ hnone => absurd hnone hne, fun _ => h⟩

namespace Vocabulary

variable {v : Vocabulary} {t : Tree} {root : String} {commands : List CommandInfo}
  {groups : List Group}

theorem length_choices_of_checkParam {p : Param} {r : Resolver} (h : v.checkParam p = .ok r) :
    p.choices.length ≤ 25 := by
  unfold checkParam at h
  split at h
  next => cases h
  next =>
    split at h
    next => cases h
    next =>
      obtain ⟨⟨⟩, hchoices, -⟩ := map_eq_ok.mp h
      exact checkChoices_eq_ok_iff.mp hchoices

theorem fewChoices_parameterNode_iff {parent : Nat} {p : Param} :
    (v.parameterNode parent p).extent.FewChoices ↔ (offeredChoices v.resolvers p).length ≤ 25 := by
  have hchoices : (v.parameterNode parent p).extent.choices = choicesValue v.resolvers p :=
    get?_choices v.resolvers p
  rw [Extent.FewChoices, hchoices, choicesValue]
  cases offeredChoices v.resolvers p with
  | nil => simp
  | cons first rest => simp

/-- Only parameters have properties. -/
theorem properties_eq_empty (h : v.layout root commands groups = .ok t) {i : Nat} {n : Node}
    (hn : t.node? i = some n) (hkind : n.kind ≠ .parameter) : n.properties = Dict.empty := by
  obtain ⟨bare, hgrown⟩ := grown_layout h
  -- Where there are subcommands or groups, the root shows no parameters.
  have hplaced : n.kind = .subcommand ∨ n.kind = .group → _ :=
    fun hkind => placed_layout h (showsBare_eq_false h hn hkind)
  cases hcase : n.kind with
  | root =>
      obtain rfl := (hgrown.kind_root hn).mp hcase
      rw [(holds_root h).eq hn]
  | group => rw [((hplaced (.inr hcase)).group hn hcase).1.eq hn, groupNode]
  | subcommand =>
      obtain ⟨c, -, parent, name, -, hat⟩ := (hplaced (.inl hcase)).sound hn hcase
      rw [hat.holds.eq hn, subcommandNode]
  | parameter => exact absurd hcase hkind

theorem length_choices_of_published (h : v.layout root commands groups = .ok t) {c : CommandInfo}
    (hc : Published root commands groups c) {p : Param} (hp : p ∈ v.shownParams c) :
    p.choices.length ≤ 25 := by
  have hchecked := checkCommand_of_layout h (List.mem_of_find?_eq_some hc.first) hc.root_eq
  obtain ⟨r, hr⟩ := exists_checkParam_of_mem (checkParams_of_checkCommand hchecked) p
    (List.mem_filter.mp hp).1
  exact length_choices_of_checkParam hr

/-- What a shown parameter offers is in the tree. -/
theorem length_offeredChoices_of_fewChoices (h : v.layout root commands groups = .ok t)
    (hfew : ∀ {i n}, t.node? i = some n → n.extent.FewChoices) {c : CommandInfo}
    (hc : Published root commands groups c) {p : Param} (hp : p ∈ v.shownParams c) :
    (offeredChoices v.resolvers p).length ≤ 25 := by
  obtain ⟨bare, hgrown⟩ := grown_layout h
  obtain ⟨i, n, -, -, hshows, -⟩ := exists_shows_of_published h hc
  have hmem : v.parameterNode i p ∈ (t.childrenOf i).map (·.2) :=
    hshows ▸ List.mem_map_of_mem hp
  obtain ⟨child, hchild, heq⟩ := List.mem_map.mp hmem
  have hchoices := hfew (hgrown.linked.mem_childrenOf_iff.mp hchild).1
  rw [heq] at hchoices
  exact fewChoices_parameterNode_iff.mp hchoices

/-- Names, descriptions and children keep the limits in every tree.  Choices keep them
exactly when no parameter that is shown offers too large an enumeration. -/
theorem everywhere_sized_and_fewChoices_iff (h : v.layout root commands groups = .ok t) :
    t.Everywhere Extent.Sized ∧
      (t.Everywhere Extent.FewChoices ↔
        ∀ c, Published root commands groups c → ∀ p ∈ v.shownParams c, OffersFew v.resolvers p) := by
  obtain ⟨-, -, -, -, hlimits⟩ := layout_eq_ok h
  obtain ⟨bare, hgrown⟩ := grown_layout h
  have hlinked := hgrown.linked
  rw [hlinked.everywhere_iff, hlinked.everywhere_iff]
  refine ⟨fun hn => (Tree.check_eq_ok_iff.mp hlimits hn).1, ?_, ?_⟩
  · intro hfew c hc p hp
    rw [← length_offeredChoices_le_iff (length_choices_of_published h hc hp)]
    exact length_offeredChoices_of_fewChoices h hfew hc hp
  · intro hoffers i n hn
    by_cases hkind : n.kind = .parameter
    · obtain ⟨c, j, p, hc, -, hp, rfl⟩ := published_of_parameter h hn hkind
      rw [fewChoices_parameterNode_iff,
        length_offeredChoices_le_iff (length_choices_of_published h hc hp)]
      exact hoffers c hc p hp
    · intro value hvalue
      rw [Node.extent, properties_eq_empty h hn hkind] at hvalue
      cases hvalue

/-! ## Offering letters -/

def letter : Param :=
  ⟨"letter", .named "Letter", false, none, Dict.empty, Dict.empty, [], [], none, none, none, none,
    none⟩

def mood : Param :=
  ⟨"mood", .string, false, none, Dict.empty, Dict.empty, [⟨"good", "1"⟩], [], none, none, none,
    none, none⟩

def askLetter : CommandInfo :=
  ⟨"ask", [], [letter, mood], "Asks", "", Dict.empty⟩

/-- An enumeration of two letters is offered as it is. -/
theorem everywhere_askLetter :
    let v : Vocabulary := ⟨.withEnums [("Letter", ["a", "b"])], .standard⟩
    ∃ t, v.layout "ask" [askLetter] [] = .ok t ∧ t.Everywhere Extent.Sized ∧
      t.Everywhere Extent.FewChoices := by
  intro v
  have hok : (v.layout "ask" [askLetter] []).isOk = true := by decide +kernel
  obtain ⟨t, h⟩ := exists_eq_ok hok
  obtain ⟨hsized, hfew⟩ := everywhere_sized_and_fewChoices_iff h
  refine ⟨t, h, hsized, hfew.mpr ?_⟩
  intro c hc p hp hnone name members htype hmembers
  obtain rfl := List.mem_singleton.mp (List.mem_of_find?_eq_some hc.first)
  have hp := (List.mem_filter.mp hp).1
  simp only [askLetter, List.mem_cons, List.not_mem_nil, or_false] at hp
  rcases hp with rfl | rfl
  · obtain rfl : "Letter" = name := ParamType.named.inj htype
    have htwo : v.resolvers.members? "Letter" = some ["a", "b"] := by decide +kernel
    rw [htwo, Option.some.injEq] at hmembers
    rw [← hmembers]
    decide
  · cases hnone

def letters : List String :=
  ["a", "b", "c", "d", "e", "f", "g", "h", "i", "j", "k", "l", "m", "n", "o", "p", "q", "r", "s",
    "t", "u", "v", "w", "x", "y", "z"]

/-- An enumeration of all letters is offered too, in a tree that is laid out. -/
theorem not_everywhere_askLetter :
    let v : Vocabulary := ⟨.withEnums [("Letter", letters)], .standard⟩
    ∃ t, v.layout "ask" [askLetter] [] = .ok t ∧ ¬ t.Everywhere Extent.FewChoices := by
  intro v
  have hok : (v.layout "ask" [askLetter] []).isOk = true := by decide +kernel
  obtain ⟨t, h⟩ := exists_eq_ok hok
  refine ⟨t, h, fun hfew => ?_⟩
  have hpublished : Published "ask" [askLetter] [] askLetter := by
    refine ⟨rfl, rfl, fun _ => ⟨rfl, fun c hc _ => ?_⟩⟩
    rw [List.mem_singleton.mp hc]
    rfl
  have hshown : letter ∈ v.shownParams askLetter :=
    List.mem_filter.mpr ⟨List.mem_cons_self, by decide +kernel⟩
  have hfits := length_offeredChoices_of_fewChoices h hfew.1 hpublished hshown
  have hmany : (offeredChoices v.resolvers letter).length = 26 := by decide +kernel
  omega

end Vocabulary

end Schema

end ChatCommands
