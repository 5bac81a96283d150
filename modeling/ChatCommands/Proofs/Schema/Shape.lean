import ChatCommands.Resolve.Standard
import ChatCommands.Proofs.Dict
import ChatCommands.Proofs.Schema.Growth

/-!
# The shape of laid out trees

A tree that was laid out is a tree: every node can be reached from the root and is
listed once, by its parent alone.  Below the root hang parameters or else groups and
subcommands, below a group subcommands, and below a subcommand parameters.  Siblings
have different names, and parameters stand in an order in which they can be given.
-/

namespace ChatCommands.Schema

/-- The shape of the tree of a root. -/
structure Vocabulary.Shaped (v : Vocabulary) (root : String) (commands : List CommandInfo)
    (t : Tree) : Prop where
  root_eq : t.root = 0
  only_root : ∀ {i n}, t.node? i = some n → (n.kind = .root ↔ i = 0)
  reachable : ∀ {i n}, t.node? i = some n → Relation.ReflTransGen t.Lists 0 i
  /-- What is listed is a node other than the root. -/
  listed : ∀ {i j}, t.Lists j i → i ≠ 0 ∧ ∃ n, t.node? i = some n
  parent : ∀ {i n}, t.node? i = some n → i ≠ 0 →
    ∃ j m, j < i ∧ n.parent = some j ∧ t.node? j = some m ∧ m.children.count i = 1 ∧
      ∀ k, t.Lists k i → k = j
  root_children : (∀ child ∈ t.childrenOf 0, child.2.kind = .parameter) ∨
    ∀ child ∈ t.childrenOf 0, child.2.kind = .subcommand ∨ child.2.kind = .group
  group : ∀ {i n}, t.node? i = some n → n.kind = .group →
    n.parent = some 0 ∧ n.children ≠ [] ∧ ∀ child ∈ t.childrenOf i, child.2.kind = .subcommand
  subcommand : ∀ {i n}, t.node? i = some n → n.kind = .subcommand →
    ∀ child ∈ t.childrenOf i, child.2.kind = .parameter
  parameter : ∀ {i n}, t.node? i = some n → n.kind = .parameter → n.children = []
  apart : ∀ i, (t.childrenOf i).Pairwise fun a b => Text.asciiEq a.2.name b.2.name = false
  /-- Every parameter says whether it is required, and none that is required follows
  one that is not. -/
  required : ∀ i, (∀ child ∈ t.childrenOf i, child.2.kind = .parameter →
      ∃ flag, child.2.properties.get? "required" = some (.bool flag)) ∧
    (t.childrenOf i).Pairwise fun a b => a.2.kind = .parameter → b.2.kind = .parameter →
      a.2.properties.get? "required" = some (.bool false) →
        b.2.properties.get? "required" ≠ some (.bool true)
  /-- Siblings that are parameters show those of a command in their order, and one that
  holds a list of texts is the last. -/
  row : ∀ {i n}, t.node? i = some n → (∃ child ∈ t.childrenOf i, child.2.kind = .parameter) →
    ∃ c ∈ commands, c.root = root ∧
      (t.childrenOf i).map (·.2) = (v.shownParams c).map (v.parameterNode i) ∧
      ∀ k p, (v.shownParams c)[k]? = some p → p.type = .strings →
        k + 1 = (t.childrenOf i).length

theorem fst_of_mem_property {key : String} {value : Option Json} {entry : String × Json}
    (h : entry ∈ property key value) : entry.1 = key := by
  obtain ⟨_, -, rfl⟩ := List.mem_map.mp h
  rfl

theorem get?_insertAll_property (d : Properties) (key : String) (value : Option Json) :
    (d.insertAll (property key value)).get? key = value.or (d.get? key) := by
  cases value with
  | none => rfl
  | some value =>
      have hone : property key (some value) = [(key, value)] := rfl
      rw [hone, Dict.insertAll_cons, Dict.insertAll_nil, Dict.get?_insert, if_pos rfl]
      rfl

/-- Of properties that may be missing, each one has its value if their keys differ. -/
theorem get?_insertAll_properties {d : Properties} {key : String} {value : Option Json}
    {pairs : List (String × Option Json)} (hkeys : (pairs.map (·.1)).Nodup)
    (hfresh : d.get? key = none) (hmem : (key, value) ∈ pairs) :
    (d.insertAll (pairs.flatMap fun pair => property pair.1 pair.2)).get? key = value := by
  induction pairs generalizing d with
  | nil => exact absurd hmem List.not_mem_nil
  | cons first rest ih =>
      obtain ⟨hfirst, hrest⟩ := List.nodup_cons.mp hkeys
      rw [List.flatMap_cons, Dict.insertAll_append]
      rcases List.mem_cons.mp hmem with rfl | hmem
      · rw [Dict.get?_insertAll_of_ne, get?_insertAll_property, hfresh, Option.or_none]
        intro entry hentry
        obtain ⟨pair, hpair, hentry⟩ := List.mem_flatMap.mp hentry
        rw [fst_of_mem_property hentry]
        exact fun heq => hfirst (List.mem_map.mpr ⟨pair, hpair, heq⟩)
      · refine ih hrest ?_ hmem
        rw [Dict.get?_insertAll_of_ne, hfresh]
        intro entry hentry
        rw [fst_of_mem_property hentry]
        exact fun heq => hfirst (List.mem_map.mpr ⟨(key, value), hmem, heq.symm⟩)

/-- What is published about a parameter, under its keys. -/
def published (table : ResolverTable) (p : Param) : List (String × Option Json) :=
  [("type", some (.string p.type.optionType.name)), ("required", some (.bool p.requiresInput)),
    ("choices", choicesValue table p), ("min_value", leastValue p),
    ("max_value", greatestValue p), ("min_length", lengthLimit p p.minLength),
    ("max_length", lengthLimit p p.maxLength), ("channel_types", channelTypes p),
    ("autocomplete", if p.hasFlag "autocomplete" then some (.bool true) else none)]

theorem parameterProperties_eq (table : ResolverTable) (p : Param) :
    parameterProperties table p =
      Dict.ofList ((published table p).flatMap fun pair => property pair.1 pair.2) := by
  simp [parameterProperties, published, property]

theorem get?_of_mem_published {table : ResolverTable} {p : Param} {key : String}
    {value : Option Json} (h : (key, value) ∈ published table p) :
    (parameterProperties table p).get? key = value := by
  have hkeys : ((published table p).map (·.1)).Nodup := by
    simp [published]
  rw [parameterProperties_eq, Dict.ofList]
  exact get?_insertAll_properties hkeys (Dict.get?_empty key) h

theorem get?_type (table : ResolverTable) (p : Param) :
    (parameterProperties table p).get? "type" = some (.string p.type.optionType.name) :=
  get?_of_mem_published (by simp [published])

theorem get?_required (table : ResolverTable) (p : Param) :
    (parameterProperties table p).get? "required" = some (.bool p.requiresInput) :=
  get?_of_mem_published (by simp [published])

theorem get?_choices (table : ResolverTable) (p : Param) :
    (parameterProperties table p).get? "choices" = choicesValue table p :=
  get?_of_mem_published (by simp [published])

theorem get?_min_value (table : ResolverTable) (p : Param) :
    (parameterProperties table p).get? "min_value" = leastValue p :=
  get?_of_mem_published (by simp [published])

theorem get?_max_value (table : ResolverTable) (p : Param) :
    (parameterProperties table p).get? "max_value" = greatestValue p :=
  get?_of_mem_published (by simp [published])

theorem get?_channel_types (table : ResolverTable) (p : Param) :
    (parameterProperties table p).get? "channel_types" = channelTypes p :=
  get?_of_mem_published (by simp [published])

namespace Tree

variable {t : Tree}

theorem checkNode_of_check (h : t.check = .ok ()) {i : Nat} {n : Node}
    (hn : t.node? i = some n) : t.checkNode i n = .ok () := by
  have hmem : (n, i) ∈ t.nodes.zipIdx := List.mem_zipIdx_iff_getElem?.mpr hn
  exact forM_eq_ok.mp h (n, i) hmem

/-- A node passes the check by what it says and by its number of children. -/
theorem checkNode_eq_ok_iff {i : Nat} {n : Node} :
    t.checkNode i n = .ok () ↔
      checkName n.name = .ok () ∧ checkDescription n.name n.description = .ok () ∧
        n.children.length ≤ Limits.children ∧ ¬ (n.kind = .group ∧ n.children = []) := by
  simp only [checkNode, bind_eq_ok, check_eq_ok, ite_throw_eq_ok, Nat.not_lt]
  constructor
  · rintro ⟨⟨⟩, hname, ⟨⟩, hdescription, hrest⟩
    exact ⟨hname, hdescription, hrest⟩
  · rintro ⟨hname, hdescription, hrest⟩
    exact ⟨(), hname, (), hdescription, hrest⟩

theorem children_ne_nil_of_checkNode {i : Nat} {n : Node} (h : t.checkNode i n = .ok ())
    (hkind : n.kind = .group) : n.children ≠ [] := by
  obtain ⟨-, -, -, hgroup⟩ := checkNode_eq_ok_iff.mp h
  exact fun hempty => hgroup ⟨hkind, hempty⟩

theorem IsLinked.map_fst_childrenOf (ht : t.IsLinked) {i : Nat} {n : Node}
    (hn : t.node? i = some n) : (t.childrenOf i).map (·.1) = n.children := by
  rw [childrenOf_of_node? hn, List.map_filterMap]
  conv => rhs; rw [← List.filterMap_some (l := n.children)]
  refine List.filterMap_congr fun c hc => ?_
  obtain ⟨m, hm, -⟩ := ht.child hn hc
  rw [hm]
  rfl

theorem IsLinked.children_eq_nil (ht : t.IsLinked) {i : Nat} {n : Node}
    (hn : t.node? i = some n) (h : t.childrenOf i = []) : n.children = [] := by
  rw [← ht.map_fst_childrenOf hn, h, List.map_nil]

theorem IsLinked.parent_of_lists (ht : t.IsLinked) {i j : Nat} (h : t.Lists j i) :
    ∃ n, t.node? i = some n ∧ n.parent = some j := by
  obtain ⟨m, hm, hi⟩ := h
  exact ht.child hm hi

end Tree

namespace Vocabulary

variable {v : Vocabulary} {t : Tree} {commands : List CommandInfo} {bare : Bool}

theorem Grown.childrenOf_eq_nil (h : v.Grown commands bare [] t) {i : Nat} {n : Node}
    (hn : t.node? i = some n) (hkind : n.kind = .parameter) : t.childrenOf i = [] := by
  have hbears := h.bears hn List.not_mem_nil
  rw [hkind] at hbears
  exact hbears

theorem Grown.kind_ne_parameter (h : v.Grown commands bare [] t) {i : Nat} {n : Node}
    {child : Nat × Node} (hn : t.node? i = some n) (hchild : child ∈ t.childrenOf i) :
    n.kind ≠ .parameter := by
  intro hkind
  rw [h.childrenOf_eq_nil hn hkind] at hchild
  cases hchild

/-- The siblings of a parameter are a row of parameters. -/
theorem Grown.exists_shows (h : v.Grown commands bare [] t) {i : Nat}
    (hparam : ∃ child ∈ t.childrenOf i, child.2.kind = .parameter) :
    ∃ c ∈ commands, v.Shows t i (v.shownParams c) := by
  obtain ⟨child, hchild, hkind⟩ := hparam
  obtain ⟨⟨n, hn, -⟩, -⟩ := Tree.mem_childrenOf_iff.mp hchild
  have hmem : child.2.kind ∈ t.childKinds i := List.mem_map.mpr ⟨child, hchild, rfl⟩
  -- Of what a node of each kind bears, only a row has a parameter in it.
  have hbears := h.bears hn List.not_mem_nil
  cases hcase : n.kind with
  | root =>
      rw [hcase] at hbears
      cases bare with
      | true => exact hbears
      | false =>
          rcases hbears _ hmem with hother | hother
          · simp [hkind] at hother
          · simp [hkind] at hother
  | group =>
      rw [hcase] at hbears
      have hother := hbears _ hmem
      simp [hkind] at hother
  | subcommand =>
      rw [hcase] at hbears
      exact hbears
  | parameter => exact absurd hcase (h.kind_ne_parameter hn hchild)

/-- Every node but the root hangs below another one, which is no parameter. -/
theorem Grown.exists_parent (h : v.Grown commands bare [] t) {i : Nat} {n : Node}
    (hn : t.node? i = some n) (hkind : n.kind ≠ .root) :
    ∃ j m, n.parent = some j ∧ t.node? j = some m ∧ m.kind ≠ .parameter ∧
      (i, n) ∈ t.childrenOf j := by
  obtain ⟨j, -, hparent⟩ := h.linked.parent_lt hn fun hi => hkind ((h.kind_root hn).mpr hi)
  obtain ⟨m, hm, hlisted⟩ := h.linked.listed hn hparent
  have hchild : (i, n) ∈ t.childrenOf j := Tree.mem_childrenOf_iff.mpr ⟨⟨m, hm, hlisted⟩, hn⟩
  exact ⟨j, m, hparent, hm, h.kind_ne_parameter hm hchild, hchild⟩

/-- A group hangs below the root. -/
theorem Grown.parent_of_group (h : v.Grown commands bare [] t) {i : Nat} {n : Node}
    (hn : t.node? i = some n) (hkind : n.kind = .group) : n.parent = some 0 := by
  obtain ⟨j, m, hparent, hm, hnot, hchild⟩ := h.exists_parent hn (by simp [hkind])
  have hmem : n.kind ∈ t.childKinds j := List.mem_map.mpr ⟨(i, n), hchild, rfl⟩
  -- No other kind of parent bears a group.
  have hbears := h.bears hm List.not_mem_nil
  cases hcase : m.kind with
  | root =>
      rw [(h.kind_root hm).mp hcase] at hparent
      exact hparent
  | group =>
      rw [hcase] at hbears
      have hother := hbears _ hmem
      simp [hkind] at hother
  | subcommand =>
      rw [hcase] at hbears
      obtain ⟨c, -, hs⟩ := hbears
      have hother := hs.kind_eq _ hchild
      simp [hkind] at hother
  | parameter => exact absurd hcase hnot

/-- Below a group of a tree that keeps the limits hangs a subcommand. -/
theorem Grown.exists_subcommand (h : v.Grown commands bare [] t) (hlimits : t.check = .ok ())
    {i : Nat} {n : Node} (hn : t.node? i = some n) (hkind : n.kind = .group) :
    ∃ child ∈ t.childrenOf i, child.2.kind = .subcommand := by
  -- A declared group may stay empty while the tree grows; the limits then refuse it.
  have hchildren := Tree.children_ne_nil_of_checkNode (Tree.checkNode_of_check hlimits hn) hkind
  have hbelow : t.childrenOf i ≠ [] := fun hnone => hchildren (h.linked.children_eq_nil hn hnone)
  obtain ⟨child, hchild⟩ := List.exists_mem_of_ne_nil _ hbelow
  have hbears := h.bears hn List.not_mem_nil
  rw [hkind] at hbears
  exact ⟨child, hchild, hbears _ (List.mem_map.mpr ⟨child, hchild, rfl⟩)⟩

theorem Grown.root_children (h : v.Grown commands bare [] t) :
    (∀ child ∈ t.childrenOf 0, child.2.kind = .parameter) ∨
      ∀ child ∈ t.childrenOf 0, child.2.kind = .subcommand ∨ child.2.kind = .group := by
  obtain ⟨n, hn⟩ : ∃ n, t.node? 0 = some n := ⟨_, h.linked.root_eq ▸ t.node?_root⟩
  have hbears := h.bears hn List.not_mem_nil
  rw [h.kind_node?_zero hn] at hbears
  cases bare with
  | true =>
      obtain ⟨c, -, hs⟩ := hbears
      exact .inl hs.kind_eq
  | false =>
      right
      intro child hchild
      exact hbears _ (List.mem_map.mpr ⟨child, hchild, rfl⟩)

/-- In a row of checked parameters none that is required follows one that is not. -/
theorem Shows.pairwise_required {i : Nat} {c : CommandInfo} (hs : v.Shows t i (v.shownParams c))
    (hc : v.checkCommand c = .ok ()) :
    (t.childrenOf i).Pairwise fun a b =>
      a.2.properties.get? "required" = some (.bool false) →
        b.2.properties.get? "required" ≠ some (.bool true) := by
  obtain ⟨hordered, -⟩ := pairwise_requiresInput (checkParams_of_checkCommand hc)
  have hrow : ((v.shownParams c).map (v.parameterNode i)).Pairwise fun a b =>
      a.properties.get? "required" = some (.bool false) →
        b.properties.get? "required" ≠ some (.bool true) := by
    refine List.pairwise_map.mpr (hordered.imp ?_)
    intro p q hpq hp hq
    simp only [parameterNode, get?_required, Option.some.injEq, Json.bool.injEq] at hp hq
    rw [hpq hp] at hq
    cases hq
  rw [← hs, List.pairwise_map] at hrow
  exact hrow

/-- In a row of checked parameters one that holds a list of texts is the last. -/
theorem Shows.length_of_strings {i : Nat} {c : CommandInfo}
    (hs : v.Shows t i (v.shownParams c)) (hc : v.checkCommand c = .ok ()) {k : Nat} {p : Param}
    (hp : (v.shownParams c)[k]? = some p) (htype : p.type = .strings) :
    k + 1 = (t.childrenOf i).length := by
  have hlength : (t.childrenOf i).length = (v.shownParams c).length := by
    simpa using congrArg List.length hs
  have hlast : (v.shownParams c).Pairwise fun p _ => p.type.isVariadic = false :=
    pairwise_isVariadic (checkParams_of_checkCommand hc)
  obtain ⟨hk, rfl⟩ := List.getElem?_eq_some_iff.mp hp
  rw [hlength]
  by_contra hne
  have hnext : k + 1 < (v.shownParams c).length := by omega
  have hnot := List.pairwise_iff_getElem.mp hlast k (k + 1) hk hnext (Nat.lt_succ_self k)
  rw [htype] at hnot
  cases hnot

/-- A tree that has grown from checked commands and keeps to the limits has the shape of its
root. -/
theorem Grown.shaped {root : String} (hgrown : v.Grown (ofRoot root commands) bare [] t)
    (hchecked : ∀ c ∈ ofRoot root commands, v.checkCommand c = .ok ())
    (hlimits : t.check = .ok ()) : v.Shaped root commands t := by
  have hlinked := hgrown.linked
  constructor
  case root_eq => exact hlinked.root_eq
  case only_root => exact hgrown.kind_root
  case reachable =>
    intro i n hn
    exact hlinked.root_eq ▸ hlinked.reachable hn
  case listed =>
    intro i j hlists
    obtain ⟨n, hn, hparent⟩ := hlinked.parent_of_lists hlists
    refine ⟨?_, n, hn⟩
    rintro rfl
    rw [hlinked.root_parent hn] at hparent
    cases hparent
  case parent =>
    intro i n hn hi
    obtain ⟨j, hj, hparent⟩ := hlinked.parent_lt hn hi
    obtain ⟨m, hm, hmem⟩ := hlinked.listed hn hparent
    refine ⟨j, m, hj, hparent, hm, hlinked.count_children hm hmem, ?_⟩
    intro k hlists
    obtain ⟨n', hn', hk⟩ := hlinked.parent_of_lists hlists
    rw [hn, Option.some.injEq] at hn'
    rw [← hn', hparent, Option.some.injEq] at hk
    exact hk.symm
  case root_children => exact hgrown.root_children
  case group =>
    intro i n hn hkind
    have hbears := hgrown.bears hn List.not_mem_nil
    rw [hkind] at hbears
    -- A declared group may stay empty while the tree grows; the limits then refuse it.
    refine ⟨hgrown.parent_of_group hn hkind,
      Tree.children_ne_nil_of_checkNode (Tree.checkNode_of_check hlimits hn) hkind, ?_⟩
    intro child hchild
    exact hbears _ (List.mem_map.mpr ⟨child, hchild, rfl⟩)
  case subcommand =>
    intro i n hn hkind
    have hbears := hgrown.bears hn List.not_mem_nil
    rw [hkind] at hbears
    obtain ⟨c, -, hs⟩ := hbears
    exact hs.kind_eq
  case parameter =>
    intro i n hn hkind
    have hbears := hgrown.bears hn List.not_mem_nil
    rw [hkind] at hbears
    exact hlinked.children_eq_nil hn hbears
  case apart =>
    intro i
    exact List.pairwise_map.mp (hlinked.apart i)
  case required =>
    intro i
    constructor
    · intro child hchild hkind
      obtain ⟨c, -, hs⟩ := hgrown.exists_shows ⟨child, hchild, hkind⟩
      have hmem : child.2 ∈ (v.shownParams c).map (v.parameterNode i) :=
        hs ▸ List.mem_map_of_mem hchild
      obtain ⟨p, -, hp⟩ := List.mem_map.mp hmem
      exact ⟨p.requiresInput, hp ▸ get?_required v.resolvers p⟩
    · by_cases hparam : ∃ child ∈ t.childrenOf i, child.2.kind = .parameter
      · obtain ⟨c, hc, hs⟩ := hgrown.exists_shows hparam
        exact (hs.pairwise_required (hchecked c hc)).imp fun hpq _ _ => hpq
      · refine List.pairwise_of_forall_mem_list ?_
        intro a ha b _ hkind
        exact absurd ⟨a, ha, hkind⟩ hparam
  case row =>
    intro i n hn hparam
    obtain ⟨c, hc, hs⟩ := hgrown.exists_shows hparam
    obtain ⟨hmem, hroot⟩ := mem_ofRoot_iff.mp hc
    refine ⟨c, hmem, hroot, hs, ?_⟩
    intro k p hp htype
    exact hs.length_of_strings (hchecked c hc) hp htype

/-- Whatever commands and groups there are, a tree that is laid out for a root has its
shape. -/
theorem shaped_layout {root : String} {groups : List Group}
    (h : v.layout root commands groups = .ok t) : v.Shaped root commands t := by
  obtain ⟨bare, hgrown⟩ := grown_layout h
  obtain ⟨hchecked, -, -, -, hlimits⟩ := layout_eq_ok h
  exact hgrown.shaped hchecked hlimits

/-- A root that stays without parameters, an overload that is not shown, a subcommand
and a group that is declared and one that a command brings in. -/
theorem exists_shaped_role :
    let info (sub : List String) (params : List Param) : CommandInfo :=
      ⟨"role", sub, params, "Roles", "", Dict.empty⟩
    let param (name : String) (type : ParamType) (optional : Bool) : Param :=
      ⟨name, type, optional, none, Dict.empty, Dict.empty, [], [], none, none, none, none, none⟩
    let v : Vocabulary := ⟨.standard, .standard⟩
    let commands : List CommandInfo :=
      [info [] [param "who" .user false],
       info ["give"] [param "who" .user false, param "role" .role true, param "why" .strings true],
       info ["give"] [param "role" .role false],
       info ["color", "set"] [param "role" .role false, param "color" .string false]]
    let groups : List Group := [⟨["role", "color"], "Colors", []⟩]
    ∃ t, v.layout "role" commands groups = .ok t ∧ v.Shaped "role" commands t := by
  intro info param v commands groups
  cases h : v.layout "role" commands groups with
  | ok t => exact ⟨t, rfl, shaped_layout h⟩
  | error e =>
      have hok : (v.layout "role" commands groups).isOk = true := by decide +kernel
      rw [h] at hok
      cases hok

end Vocabulary

end ChatCommands.Schema
