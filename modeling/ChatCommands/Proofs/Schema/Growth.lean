import ChatCommands.Proofs.Schema.Arena
import ChatCommands.Proofs.Schema.Layout

/-!
# How a tree grows while it is laid out

Every step of the layout gives one node one more child.  Which children a node of
each kind may have is stated once; a step disturbs at most the node that gains a
child and the child itself, and a command or a group is placed by steps that leave
no node unfinished.
-/

namespace ChatCommands.Schema

namespace Vocabulary

variable {v : Vocabulary} {t t' : Tree}

/-- The node that shows a parameter below another. -/
def parameterNode (v : Vocabulary) (parent : Nat) (p : Param) : Node where
  kind := .parameter
  name := p.name
  description := p.shownDescription
  properties := parameterProperties v.resolvers p
  parent := some parent

/-- The node of a subcommand without its children. -/
def subcommandNode (parent : Nat) (name : String) (c : CommandInfo) : Node where
  kind := .subcommand
  name := name
  description := c.description
  parent := some parent

/-- The node of a group without its children. -/
def groupNode (declared : List Group) (name : String) : Node where
  kind := .group
  name := name
  description := groupDescription declared name
  parent := some 0

/-- The parameters of a command that are shown. -/
def shownParams (v : Vocabulary) (c : CommandInfo) : List Param :=
  c.params.filter v.isShown

/-- What hangs below a node are parameters in their order. -/
def Shows (v : Vocabulary) (t : Tree) (i : Nat) (params : List Param) : Prop :=
  (t.childrenOf i).map (·.2) = params.map (v.parameterNode i)

/-- What hangs below a node of each kind.  The root bears the parameters of a
command or else subcommands and groups. -/
def Bears (v : Vocabulary) (commands : List CommandInfo) (bare : Bool) (t : Tree) (i : Nat) :
    NodeKind → Prop
  | .root =>
      if bare then ∃ c ∈ commands, v.Shows t i (v.shownParams c)
      else ∀ kind ∈ t.childKinds i, kind = .subcommand ∨ kind = .group
  | .group => ∀ kind ∈ t.childKinds i, kind = .subcommand
  | .subcommand => ∃ c ∈ commands, v.Shows t i (v.shownParams c)
  | .parameter => t.childrenOf i = []

/-- A linked tree whose nodes bear what they may, apart from some that are not
finished. -/
structure Grown (v : Vocabulary) (commands : List CommandInfo) (bare : Bool)
    (unfinished : List Nat) (t : Tree) : Prop where
  linked : t.IsLinked
  kind_root : ∀ {i n}, t.node? i = some n → (n.kind = .root ↔ i = 0)
  bears : ∀ {i n}, t.node? i = some n → i ∉ unfinished → v.Bears commands bare t i n.kind

/-! ## Rows of parameters -/

theorem Shows.exists_parameterNode {i : Nat} {params : List Param} (h : v.Shows t i params)
    {child : Nat × Node} (hchild : child ∈ t.childrenOf i) :
    ∃ p ∈ params, child.2 = v.parameterNode i p := by
  have hmem : child.2 ∈ params.map (v.parameterNode i) := h ▸ List.mem_map_of_mem hchild
  obtain ⟨p, hp, heq⟩ := List.mem_map.mp hmem
  exact ⟨p, hp, heq.symm⟩

theorem Shows.kind_eq {i : Nat} {params : List Param} (h : v.Shows t i params) :
    ∀ child ∈ t.childrenOf i, child.2.kind = .parameter := by
  intro child hchild
  obtain ⟨p, -, hp⟩ := h.exists_parameterNode hchild
  rw [hp]
  rfl

theorem gains_addParam {parent : Nat} {p : Param} (h : v.addParam parent t p = .ok t') :
    t.Gains parent (v.parameterNode parent p) t' := by
  rw [addParam, bind_eq_ok] at h
  obtain ⟨⟨id, grown⟩, hgrown, h⟩ := h
  simp only [pure, Except.pure, Except.ok.injEq] at h
  obtain ⟨rfl, hgains⟩ := Tree.gains_addChild hgrown
  rw [← h]
  exact hgains.modify (parameterProperties v.resolvers p)

theorem Shows.gain {i : Nat} {params : List Param} {p : Param} (hs : v.Shows t i params)
    (ht : t.IsLinked) (g : t.Gains i (v.parameterNode i p) t') :
    v.Shows t' i (params ++ [p]) := by
  rw [Shows, g.childrenOf_parent ht, List.map_append, hs, List.map_append]
  rfl

/-! ## One step -/

/-- What a node bears stays as it is when another node gains a child. -/
theorem Bears.gain {commands : List CommandInfo} {bare : Bool} {parent i : Nat} {child m n : Node}
    (hb : v.Bears commands bare t i n.kind) (ht : t.IsLinked) (g : t.Gains parent child t')
    (hm : t.node? parent = some m) (hkind : m.kind ≠ .parameter) (hn : t.node? i = some n)
    (hi : i ≠ parent) : v.Bears commands bare t' i n.kind := by
  have hkinds : t'.childKinds i = t.childKinds i := by
    have hmap := g.map_childrenOf ht Node.kind (fun _ _ => rfl) hn
    rwa [if_neg hi, List.append_nil] at hmap
  have hsame : (∀ c ∈ t.childrenOf i, c.1 ≠ parent) → t'.childrenOf i = t.childrenOf i :=
    g.childrenOf_of_ne ht hn hi
  have hshows : (∃ c ∈ commands, v.Shows t i (v.shownParams c)) →
      ∃ c ∈ commands, v.Shows t' i (v.shownParams c) := by
    rintro ⟨c, hc, hs⟩
    refine ⟨c, hc, ?_⟩
    rw [Shows, hsame]
    · exact hs
    · -- The parent is no parameter, and so it is none of the children.
      rintro ⟨j, k⟩ hchild rfl
      have hk := (Tree.mem_childrenOf_iff.mp hchild).2
      rw [hm, Option.some.injEq] at hk
      exact hkind (hk ▸ hs.kind_eq _ hchild)
  cases hcase : n.kind with
  | root =>
      rw [hcase] at hb
      cases bare with
      | true => exact hshows hb
      | false => exact fun kind h => hb kind (hkinds ▸ h)
  | group =>
      rw [hcase] at hb
      exact fun kind h => hb kind (hkinds ▸ h)
  | subcommand =>
      rw [hcase] at hb
      exact hshows hb
  | parameter =>
      rw [hcase] at hb
      have hnone : t.childrenOf i = [] := hb
      refine (hsame ?_).trans hnone
      rw [hnone]
      exact fun c hc => absurd hc List.not_mem_nil

/-! ## What the steps do -/

theorem addSubcommand_eq_ok {parent : Nat} {name : String} {c : CommandInfo}
    (h : v.addSubcommand t parent name c = .ok t') :
    ∃ next, t.Gains parent (subcommandNode parent name c) next ∧
      v.addParams next t.size c = .ok t' := by
  unfold addSubcommand at h
  split at h
  next => contradiction
  next =>
    rw [bind_eq_ok] at h
    obtain ⟨⟨id, next⟩, hnext, hrow⟩ := h
    obtain ⟨rfl, g⟩ := Tree.gains_addChild hnext
    exact ⟨next, g, hrow⟩

theorem ensureGroup_eq_ok {declared : List Group} {name : String} {id : Nat}
    (h : ensureGroup declared t name = .ok (id, t')) :
    (∃ n, t.childNamed? t.root name = some (id, n) ∧ n.kind = .group ∧ t' = t) ∨
      id = t.size ∧ t.Gains t.root { groupNode declared name with parent := some t.root } t' := by
  unfold ensureGroup at h
  split at h
  next hfound =>
    simp only [Except.ok.injEq, Prod.mk.injEq] at h
    obtain ⟨rfl, rfl⟩ := h
    exact .inl ⟨_, hfound, rfl, rfl⟩
  next => contradiction
  next => exact .inr (Tree.gains_addChild h)

theorem placeGroup_eq_ok {declared : List Group} {g : Group}
    (h : placeGroup declared t g = .ok t') :
    (t.childNamed? t.root (groupName g)).isSome = true ∧ t' = t ∨
      ∃ id, ensureGroup declared t (groupName g) = .ok (id, t') := by
  unfold placeGroup at h
  split at h
  next hfound =>
    rw [Except.ok.injEq] at h
    exact .inl ⟨hfound, h.symm⟩
  next =>
    obtain ⟨⟨id, grown⟩, hgrown, rfl⟩ := map_eq_ok.mp h
    exact .inr ⟨id, hgrown⟩

/-- The ways to place a command below a root that shows no parameters, by the number of
words behind the root. -/
theorem place_eq_ok {declared : List Group} {c : CommandInfo}
    (h : v.place declared false t c = .ok t') :
    c.sub = [] ∧ t' = t ∨
      (∃ name, c.sub = [name] ∧ v.addSubcommand t t.root name c = .ok t') ∨
      ∃ group name id next, c.sub = [group, name] ∧
        ensureGroup declared t group = .ok (id, next) ∧
        v.addSubcommand next id name c = .ok t' := by
  unfold place at h
  split at h
  next hsub =>
    rw [if_neg (by simp), Except.ok.injEq] at h
    exact .inl ⟨hsub, h.symm⟩
  next name hsub => exact .inr (.inl ⟨name, hsub, h⟩)
  next group name hsub =>
    rw [bind_eq_ok] at h
    obtain ⟨⟨id, next⟩, hnext, hadd⟩ := h
    exact .inr (.inr ⟨group, name, id, next, hsub, hnext, hadd⟩)
  next => contradiction

namespace Grown

variable {commands : List CommandInfo} {bare : Bool} {unfinished : List Nat}

/-- A step leaves the node that gains a child and the child unfinished. -/
theorem gain {parent : Nat} {child m : Node} (h : v.Grown commands bare unfinished t)
    (g : t.Gains parent child t') (hm : t.node? parent = some m) (hkind : m.kind ≠ .parameter)
    (hchild : child.kind ≠ .root) :
    v.Grown commands bare (parent :: t.size :: unfinished) t' := by
  constructor
  case linked => exact g.isLinked h.linked
  case kind_root =>
    intro i n hn
    rcases g.eq_of_node? hn with ⟨rfl, rfl⟩ | ⟨k, hk, rfl⟩
    · have hsize : t.size ≠ 0 := Nat.ne_of_gt (Nat.zero_lt_of_lt g.parent_lt)
      simp [hchild, hsize]
    · rw [← h.kind_root hk]
      split
      · rfl
      · rfl
  case bears =>
    intro i n hn hi
    simp only [List.mem_cons, not_or] at hi
    obtain ⟨hparent, hnew, hi⟩ := hi
    rcases g.eq_of_node? hn with ⟨hsize, -⟩ | ⟨k, hk, rfl⟩
    · exact absurd hsize hnew
    · rw [if_neg hparent]
      exact (h.bears hk hi).gain h.linked g hm hkind hk hparent

/-- Nodes that bear what they may are finished. -/
theorem finish {remaining : List Nat} (h : v.Grown commands bare unfinished t)
    (hbears : ∀ i n, t.node? i = some n → i ∈ unfinished → i ∉ remaining →
      v.Bears commands bare t i n.kind) : v.Grown commands bare remaining t := by
  refine ⟨h.linked, h.kind_root, ?_⟩
  intro i n hn hi
  by_cases hopen : i ∈ unfinished
  · exact hbears i n hn hopen hi
  · exact h.bears hn hopen

theorem kind_node?_zero (h : v.Grown commands bare unfinished t) {n : Node}
    (hn : t.node? 0 = some n) : n.kind = .root :=
  (h.kind_root hn).mpr rfl

/-! ## A row -/

/-- The steps that put a row of parameters below a node keep everything else
finished. -/
theorem addParam_row {parent : Nat} {m : Node} {before params : List Param}
    (h : v.Grown commands bare [parent] t) (hm : t.node? parent = some m)
    (hkind : m.kind ≠ .parameter) (hs : v.Shows t parent before)
    (hrow : params.foldlM (v.addParam parent) t = .ok t') :
    v.Grown commands bare [parent] t' ∧ v.Shows t' parent (before ++ params) ∧
      ∃ m', t'.node? parent = some m' ∧ m'.kind = m.kind := by
  -- Between two steps only the parent of the row is unfinished.  The node stands for what
  -- the parent has become, of which no more than its kind is kept.
  induction params generalizing t m before with
  | nil =>
      simp only [List.foldlM_nil, pure, Except.pure, Except.ok.injEq] at hrow
      subst hrow
      rw [List.append_nil]
      exact ⟨h, hs, m, hm, rfl⟩
  | cons p rest ih =>
      rw [List.foldlM_cons, bind_eq_ok] at hrow
      obtain ⟨next, hnext, hrest⟩ := hrow
      have g := gains_addParam hnext
      have hgrown : v.Grown commands bare [parent] next := by
        refine (h.gain g hm hkind (by simp [parameterNode])).finish ?_
        intro i n hn hopen hi
        have hnew : i = t.size := by simpa [show i ≠ parent by simpa using hi] using hopen
        rw [hnew, g.node?_new, Option.some.injEq] at hn
        rw [hnew, ← hn]
        exact g.childrenOf_new
      have hm' := g.node?_of_node? hm
      rw [if_pos rfl] at hm'
      have hshows := hs.gain h.linked g
      obtain ⟨hgrown', hshows', m', hm'', hkind'⟩ := ih hgrown hm' hkind hshows hrest
      rw [List.append_assoc] at hshows'
      exact ⟨hgrown', hshows', m', hm'', hkind'⟩

/-- A node without children, once it has the row of a command, is finished. -/
theorem addParams {parent : Nat} {m : Node} {c : CommandInfo}
    (h : v.Grown commands bare [parent] t) (hm : t.node? parent = some m)
    (hkind : m.kind = .subcommand ∨ m.kind = .root ∧ bare = true)
    (hempty : t.childrenOf parent = []) (hc : c ∈ commands)
    (hrow : v.addParams t parent c = .ok t') : v.Grown commands bare [] t' := by
  have hnot : m.kind ≠ .parameter := by
    rcases hkind with hkind | ⟨hkind, -⟩
    · simp [hkind]
    · simp [hkind]
  have hs : v.Shows t parent [] := by simp [Shows, hempty]
  obtain ⟨hgrown, hshows, m', hm', hkind'⟩ := h.addParam_row hm hnot hs hrow
  refine hgrown.finish ?_
  intro i n hn hopen _
  rw [List.mem_singleton.mp hopen] at hn ⊢
  rw [hm', Option.some.injEq] at hn
  rw [← hn, hkind']
  rcases hkind with hkind | ⟨hkind, rfl⟩
  · rw [hkind]
    exact ⟨c, hc, hshows⟩
  · rw [hkind]
    exact ⟨c, hc, hshows⟩

/-! ## Subcommands and groups -/

/-- A subcommand with its parameters, below a root that bears no parameters or below
a group. -/
theorem addSubcommand {parent : Nat} {m : Node} {name : String} {c : CommandInfo}
    (h : v.Grown commands false [] t) (hm : t.node? parent = some m)
    (hkind : m.kind = .root ∨ m.kind = .group) (hc : c ∈ commands)
    (hadd : v.addSubcommand t parent name c = .ok t') : v.Grown commands false [] t' := by
  obtain ⟨next, g, hrow⟩ := addSubcommand_eq_ok hadd
  have hnot : m.kind ≠ .parameter := by
    rcases hkind with hkind | hkind
    · simp [hkind]
    · simp [hkind]
  have hgrown : v.Grown commands false [t.size] next := by
    refine (h.gain g hm hnot (by simp [subcommandNode])).finish ?_
    intro i n hn hopen hi
    have hparent : i = parent := by simpa [show i ≠ t.size by simpa using hi] using hopen
    have hbears := h.bears hm List.not_mem_nil
    rw [hparent, g.node?_of_node? hm, if_pos rfl, Option.some.injEq] at hn
    rw [hparent, ← hn]
    rcases hkind with hkind | hkind
    · rw [hkind] at hbears ⊢
      exact g.forall_childKinds h.linked hm hbears (.inl rfl)
    · rw [hkind] at hbears ⊢
      exact g.forall_childKinds h.linked hm hbears rfl
  exact hgrown.addParams g.node?_new (.inl rfl) g.childrenOf_new hc hrow

theorem ensureGroup {declared : List Group} {name : String} {id : Nat}
    (h : v.Grown commands false [] t) (hadd : ensureGroup declared t name = .ok (id, t')) :
    v.Grown commands false [] t' ∧ ∃ m, t'.node? id = some m ∧ m.kind = .group := by
  rcases ensureGroup_eq_ok hadd with ⟨n, hfound, hkind, rfl⟩ | ⟨rfl, g⟩
  · have hmem := List.mem_of_find?_eq_some hfound
    exact ⟨h, n, (Tree.mem_childrenOf_iff.mp hmem).2, hkind⟩
  · obtain ⟨m, hm⟩ := g.exists_node?_parent
    have hroot : m.kind = .root := by
      rw [h.linked.root_eq] at hm
      exact h.kind_node?_zero hm
    -- The root has one more group, and the group has nothing below it yet.
    refine ⟨?_, _, g.node?_new, rfl⟩
    refine (h.gain g hm (by simp [hroot]) (by simp [groupNode])).finish ?_
    intro i n hn hopen _
    simp only [List.mem_cons, List.not_mem_nil, or_false] at hopen
    rcases hopen with rfl | rfl
    · have hbears := h.bears hm List.not_mem_nil
      rw [g.node?_of_node? hm, if_pos rfl, Option.some.injEq] at hn
      rw [← hn]
      rw [hroot] at hbears ⊢
      exact g.forall_childKinds h.linked hm hbears (.inr rfl)
    · rw [g.node?_new, Option.some.injEq] at hn
      rw [← hn]
      intro kind hk
      rw [Tree.childKinds, g.childrenOf_new] at hk
      cases hk

theorem placeGroup {declared : List Group} {g : Group} (h : v.Grown commands false [] t)
    (hadd : placeGroup declared t g = .ok t') : v.Grown commands false [] t' := by
  rcases placeGroup_eq_ok hadd with ⟨-, rfl⟩ | ⟨id, hgrown⟩
  · exact h
  · exact (h.ensureGroup hgrown).1

/-- Placing a command in a tree whose root bears no parameters. -/
theorem place {declared : List Group} {c : CommandInfo} (h : v.Grown commands false [] t)
    (hc : c ∈ commands) (hadd : v.place declared false t c = .ok t') :
    v.Grown commands false [] t' := by
  rcases place_eq_ok hadd with ⟨-, rfl⟩ | ⟨name, -, hadd⟩ | ⟨group, name, id, next, -, hnext, hadd⟩
  · exact h
  · have hroot : t.rootNode.kind = .root := by
      have hn := t.node?_root
      rw [h.linked.root_eq] at hn
      exact h.kind_node?_zero hn
    exact h.addSubcommand t.node?_root (.inl hroot) hc hadd
  · obtain ⟨hgrown, m, hm, hkind⟩ := h.ensureGroup hnext
    exact hgrown.addSubcommand hm (.inr hkind) hc hadd

end Grown

theorem grown_new (v : Vocabulary) (commands : List CommandInfo) (bare : Bool)
    (name description : String) : v.Grown commands bare [0] (Tree.new name description) := by
  constructor
  case linked => exact Tree.isLinked_new name description
  case kind_root =>
    intro i n hn
    obtain ⟨hi, rfl⟩ := Tree.node?_new hn
    simp [hi]
  case bears =>
    intro i n hn hi
    exact absurd (Tree.node?_new hn).1 (by simpa using hi)

end Vocabulary

/-! ## The whole layout -/

/-- Induction for what goes on with a filtered rest, which is shorter but no tail. -/
theorem filter_induction {α : Type} {P : List α → Prop} (keeps : α → α → Bool) (nil : P [])
    (cons : ∀ x rest, P (rest.filter (keeps x)) → P (x :: rest)) (xs : List α) : P xs := by
  induction hlength : xs.length using Nat.strongRecOn generalizing xs with
  | ind length ih =>
      cases xs with
      | nil => exact nil
      | cons x rest =>
          refine cons x rest (ih _ ?_ _ rfl)
          rw [← hlength]
          exact Nat.lt_succ_of_le (List.length_filter_le _ _)

/-- Whether a command has another path than one before it. -/
def otherPath (first c : CommandInfo) : Bool :=
  c.path != first.path

theorem firstOfEachPath_cons (first : CommandInfo) (rest : List CommandInfo) :
    firstOfEachPath (first :: rest) = first :: firstOfEachPath (rest.filter (otherPath first)) := by
  have hsame : (fun c : CommandInfo => decide ((c.path == first.path) = false)) =
      otherPath first :=
    funext fun _ => Bool.decide_eq_false
  rw [firstOfEachPath, List.eraseDupsBy_cons, hsame, ← firstOfEachPath]

theorem mem_of_mem_firstOfEachPath {members : List CommandInfo} {c : CommandInfo}
    (h : c ∈ firstOfEachPath members) : c ∈ members := by
  induction members using filter_induction otherPath with
  | nil => exact h
  | cons first rest ih =>
      rw [firstOfEachPath_cons] at h
      rcases List.mem_cons.mp h with rfl | h
      · exact List.mem_cons_self
      · exact List.mem_cons_of_mem _ (List.mem_of_mem_filter (ih h))

/-- Of commands with one path only the first is left. -/
theorem firstOfEachPath_of_path_eq {members : List CommandInfo} {path : List String}
    (h : ∀ c ∈ members, c.path = path) :
    firstOfEachPath members = [] ∨ ∃ c ∈ members, firstOfEachPath members = [c] := by
  cases members with
  | nil => exact .inl rfl
  | cons first rest =>
      refine .inr ⟨first, List.mem_cons_self, ?_⟩
      have hfirst := h first List.mem_cons_self
      have hnone : rest.filter (otherPath first) = [] := by
        rw [List.filter_eq_nil_iff]
        intro b hb
        simp [otherPath, hfirst, h b (List.mem_cons_of_mem _ hb)]
      rw [firstOfEachPath_cons, hnone]
      rfl

namespace Vocabulary

/-- A tree whose root has nothing below it is grown to the end, unless it is to
show a command. -/
theorem grown_new_open (v : Vocabulary) (commands : List CommandInfo) (name description : String) :
    v.Grown commands false [] (Tree.new name description) := by
  refine (v.grown_new commands false name description).finish ?_
  intro i n hn _ _
  rw [(Tree.node?_new hn).2]
  intro kind hk
  rw [Tree.childKinds, Tree.childrenOf_new] at hk
  cases hk

theorem place_bare {v : Vocabulary} {declared : List Group} {t : Tree} {c : CommandInfo}
    (hsub : c.sub = []) : v.place declared true t c = v.addParams t t.root c := by
  rw [place, hsub]
  rfl

variable {v : Vocabulary} {t : Tree} {root : String} {commands : List CommandInfo}
  {groups : List Group}

/-- What a layout has done when the root shows parameters: it has added those of the first
command, if there is one. -/
theorem addParams_of_layout (h : v.layout root commands groups = .ok t)
    (hbare : showsBare root commands groups = true) :
    (firstOfEachPath (ofRoot root commands) = [] ∧ t = rootAlone root commands groups) ∨
      ∃ c, firstOfEachPath (ofRoot root commands) = [c] ∧ c.sub = [] ∧
        v.addParams (rootAlone root commands groups) 0 c = .ok t := by
  obtain ⟨-, placed, hplaced, hgrouped, -⟩ := layout_eq_ok h
  rw [hbare] at hplaced
  obtain ⟨hdeclared, hsub⟩ := Bool.and_eq_true_iff.mp hbare
  rw [List.isEmpty_iff.mp hdeclared, List.foldlM_nil] at hgrouped
  obtain rfl : placed = t := Except.ok.inj hgrouped
  have hsub : ∀ c ∈ ofRoot root commands, c.sub = [] := by
    simpa only [List.all_eq_true, List.isEmpty_iff] using hsub
  have hpath : ∀ c ∈ ofRoot root commands, c.path = [root] := by
    intro c hc
    rw [CommandInfo.path, (mem_ofRoot_iff.mp hc).2, hsub c hc]
  rcases firstOfEachPath_of_path_eq hpath with hnone | ⟨c, hc, hone⟩
  · rw [hnone, List.foldlM_nil] at hplaced
    exact .inl ⟨hnone, (Except.ok.inj hplaced).symm⟩
  · rw [hone, List.foldlM_cons, bind_eq_ok] at hplaced
    obtain ⟨next, hnext, hplaced⟩ := hplaced
    rw [List.foldlM_nil] at hplaced
    obtain rfl : next = placed := Except.ok.inj hplaced
    rw [place_bare (hsub c hc)] at hnext
    exact .inr ⟨c, hone, hsub c hc, hnext⟩

/-- A tree that was laid out is grown to the end. -/
theorem grown_layout (h : v.layout root commands groups = .ok t) :
    ∃ bare, v.Grown (ofRoot root commands) bare [] t := by
  cases hbare : showsBare root commands groups with
  | true =>
      rcases addParams_of_layout h hbare with ⟨-, rfl⟩ | ⟨c, hone, -, hrow⟩
      · exact ⟨false, v.grown_new_open _ _ _⟩
      · have hc : c ∈ ofRoot root commands :=
          mem_of_mem_firstOfEachPath (hone ▸ List.mem_singleton_self c)
        exact ⟨true, (v.grown_new _ true _ _).addParams (Tree.node?_root _) (.inr ⟨rfl, rfl⟩)
          (Tree.childrenOf_new _ _ _) hc hrow⟩
  | false =>
      obtain ⟨-, placed, hplaced, hgrouped, -⟩ := layout_eq_ok h
      rw [hbare] at hplaced
      -- The commands are placed first, and then the groups that none of them brought in.
      have hgrown : v.Grown (ofRoot root commands) false [] placed := by
        refine foldlM_induction (v.Grown _ false []) (v.grown_new_open _ _ _) ?_ hplaced
        intro c hc before after hbefore hstep
        exact hbefore.place (mem_of_mem_firstOfEachPath hc) hstep
      refine ⟨false, foldlM_induction (v.Grown _ false []) hgrown ?_ hgrouped⟩
      intro g _ before after hbefore hstep
      exact hbefore.placeGroup hstep

end Vocabulary

end ChatCommands.Schema
