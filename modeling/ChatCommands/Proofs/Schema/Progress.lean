import ChatCommands.Proofs.Schema.Stages

/-!
# What can be placed

A layout gets stuck in few ways.  A command whose path clashes with none that was placed,
and whose parameters go by different names, can be placed in every order, and after the
commands every declared group can.
-/

namespace ChatCommands.Schema

variable {v : Vocabulary} {start t : Tree} {declared : List Group}

theorem Tree.exists_addChild {parent : Nat} {m : Node} {name : String}
    (hm : t.node? parent = some m) (hfree : t.childNamed? parent name = none) (kind : NodeKind)
    (description : String) : ∃ id t', t.addChild parent kind name description = .ok (id, t') := by
  have hlt : parent < t.nodes.length := Tree.lt_size_of_node? hm
  rw [Tree.addChild, if_neg (by simp [hfree]), if_pos hlt]
  exact ⟨_, _, rfl⟩

theorem exists_placeGroup (t : Tree) (g : Group) : ∃ t', placeGroup declared t g = .ok t' := by
  unfold placeGroup
  split
  next => exact ⟨t, rfl⟩
  next hfree =>
    have hnone : t.childNamed? t.root (groupName g) = none := by simpa using hfree
    obtain ⟨id, t', hadd⟩ := Tree.exists_addChild t.node?_root hnone .group
      (groupDescription declared (groupName g))
    refine ⟨t', ?_⟩
    rw [ensureGroup, hnone, hadd]
    rfl

namespace Vocabulary

/-! ## Rows -/

theorem Shows.childNames_eq {i : Nat} {params : List Param} (hs : v.Shows t i params) :
    t.childNames i = params.map (·.name) := by
  have hnames := congrArg (List.map Node.name) hs
  rwa [List.map_map, List.map_map] at hnames

/-- The parameters of a row go by different names. -/
theorem Shows.pairwise_name {i : Nat} {params : List Param} (hs : v.Shows t i params)
    (ht : t.IsLinked) : params.Pairwise fun p q => Text.asciiEq p.name q.name = false := by
  have hnames := ht.apart i
  rwa [hs.childNames_eq, List.pairwise_map] at hnames

/-- Parameters can be added behind others of different names. -/
theorem Shows.exists_addRow {parent : Nat} {m : Node} {before params : List Param}
    (hs : v.Shows t parent before) (ht : t.IsLinked) (hm : t.node? parent = some m)
    (hnames : (before ++ params).Pairwise fun p q => Text.asciiEq p.name q.name = false) :
    ∃ t', params.foldlM (v.addParam parent) t = .ok t' := by
  induction params generalizing t m before with
  | nil => exact ⟨t, rfl⟩
  | cons p rest ih =>
      have hfree : t.childNamed? parent p.name = none := by
        refine List.find?_eq_none.mpr fun child hchild => ?_
        have hname : child.2.name ∈ before.map (·.name) :=
          hs.childNames_eq ▸ List.mem_map.mpr ⟨child, hchild, rfl⟩
        obtain ⟨q, hq, hqname⟩ := List.mem_map.mp hname
        have hpair := (List.pairwise_append.mp hnames).2.2 q hq p List.mem_cons_self
        rw [← hqname, hpair]
        exact Bool.false_ne_true
      obtain ⟨id, grown, hadd⟩ := Tree.exists_addChild hm hfree .parameter p.shownDescription
      have hnext : ∃ next, v.addParam parent t p = .ok next := by
        rw [addParam, hadd]
        exact ⟨_, rfl⟩
      obtain ⟨next, hnext⟩ := hnext
      have g := gains_addParam hnext
      rw [List.append_cons] at hnames
      obtain ⟨t', ht'⟩ := ih (hs.gain ht g) (g.isLinked ht) (g.node?_of_node? hm) hnames
      refine ⟨t', ?_⟩
      rw [List.foldlM_cons, hnext]
      exact ht'

theorem exists_addSubcommand {parent : Nat} {m : Node} {name : String} {c : CommandInfo}
    (ht : t.IsLinked) (hm : t.node? parent = some m) (hfree : t.childNamed? parent name = none)
    (hnames : (v.shownParams c).Pairwise fun p q => Text.asciiEq p.name q.name = false) :
    ∃ t', v.addSubcommand t parent name c = .ok t' := by
  obtain ⟨id, next, hadd⟩ := Tree.exists_addChild hm hfree .subcommand c.description
  obtain ⟨rfl, g⟩ := Tree.gains_addChild hadd
  have hs : v.Shows next t.size [] := by simp [Shows, g.childrenOf_new]
  obtain ⟨t', ht'⟩ := hs.exists_addRow (g.isLinked ht) g.node?_new hnames
  refine ⟨t', ?_⟩
  rw [Vocabulary.addSubcommand, hfree, hadd]
  exact ht'

/-! ## Commands -/

namespace Placed

variable {members done : List CommandInfo} {words : List String}

theorem exists_ensureGroup (h : v.Placed start members declared done words t) {c : CommandInfo}
    {word name : String} (hsub : c.sub = [word, name]) (hfree : ∀ d ∈ done, ¬ Clash d c) :
    ∃ i t', Schema.ensureGroup declared t word = .ok (i, t') := by
  unfold Schema.ensureGroup
  split
  next => exact ⟨_, t, rfl⟩
  next found hnot hfound =>
    -- What hangs there is no group, and so a command before has that word for a subcommand.
    obtain ⟨hchild, hname⟩ := Tree.of_childNamed?_eq_some hfound
    rw [h.grown.linked.root_eq] at hchild
    obtain ⟨n, hn, hroot⟩ := h.exists_root
    have hkind : found.2.kind = .subcommand := by
      rcases h.kind_of_child hn (.inl hroot) hchild with hkind | ⟨hkind, -⟩
      · exact hkind
      · obtain ⟨id, kind, _⟩ := found
        cases hkind
        exact absurd rfl (hnot _ _ _ _ _ _ _)
    obtain ⟨d, hd, hdsub⟩ := h.exists_sub_eq hchild hkind
    refine absurd ?_ (hfree d hd)
    rw [Clash, hdsub, hsub]
    simpa using hname
  next hfound => exact Tree.exists_addChild t.node?_root hfound .group _

theorem exists_place (h : v.Placed start members declared done (done.filterMap groupWord?) t)
    {c : CommandInfo} (hlength : c.sub.length ≤ 2)
    (hnames : c.sub ≠ [] →
      (v.shownParams c).Pairwise fun p q => Text.asciiEq p.name q.name = false)
    (hfree : ∀ d ∈ done, ¬ Clash d c) : ∃ t', v.place declared false t c = .ok t' := by
  have hroot := h.grown.linked.root_eq
  unfold Vocabulary.place
  split
  next => exact ⟨t, rfl⟩
  next name hsub =>
    obtain ⟨n, hn, -⟩ := h.exists_root
    rw [hroot]
    refine exists_addSubcommand h.grown.linked hn ?_ (hnames (by simp [hsub]))
    refine h.fresh (hsub ▸ .root) (fun _ word hword => ?_) hfree
    exact List.mem_filterMap.mp hword
  next word name hsub =>
    -- The group may be new, and so the spot is sought in the tree that has it.
    obtain ⟨i, next, hnext⟩ := h.exists_ensureGroup hsub hfree
    obtain ⟨hplaced, group, hnamed, hholds⟩ := h.ensureGroup hnext
    obtain ⟨children, hi⟩ := hholds
    have hspot : Spot declared next c.sub i name := hsub ▸ .group hnamed ⟨children, hi⟩
    have hfresh : next.childNamed? i name = none := by
      refine hplaced.fresh hspot (fun hzero => ?_) hfree
      exact absurd ⟨children, hzero ▸ hi⟩ hplaced.not_holds_zero
    rw [hnext]
    exact exists_addSubcommand hplaced.grown.linked hi hfresh (hnames (by simp [hsub]))
  next hnone hone htwo =>
    obtain ⟨root, sub, params, description, help, permissions⟩ := c
    match sub, hlength with
    | [], _ => exact absurd rfl hnone
    | [name], _ => exact absurd rfl (hone name)
    | [word, name], _ => exact absurd rfl (htwo word name)

/-- Commands none of which clashes with another can be placed one after another. -/
theorem exists_placeAll {todo : List CommandInfo}
    (h : v.Placed start members declared done (done.filterMap groupWord?) t)
    (hmembers : ∀ c ∈ todo, c ∈ members) (hlength : ∀ c ∈ todo, c.sub.length ≤ 2)
    (hnames : ∀ c ∈ todo, c.sub ≠ [] →
      (v.shownParams c).Pairwise fun p q => Text.asciiEq p.name q.name = false)
    (hapart : (done ++ todo).Pairwise fun c d => ¬ Clash c d) :
    ∃ t', todo.foldlM (v.place declared false) t = .ok t' := by
  induction todo generalizing done t with
  | nil => exact ⟨t, rfl⟩
  | cons c rest ih =>
      have hfree : ∀ d ∈ done, ¬ Clash d c :=
        fun d hd => (List.pairwise_append.mp hapart).2.2 d hd c List.mem_cons_self
      obtain ⟨next, hnext⟩ := h.exists_place (hlength c List.mem_cons_self)
        (hnames c List.mem_cons_self) hfree
      have hplaced := h.place (hmembers c List.mem_cons_self) hnext
      rw [List.append_cons] at hapart
      obtain ⟨t', ht'⟩ := ih hplaced (fun d hd => hmembers d (List.mem_cons_of_mem c hd))
        (fun d hd => hlength d (List.mem_cons_of_mem c hd))
        (fun d hd => hnames d (List.mem_cons_of_mem c hd)) hapart
      refine ⟨t', ?_⟩
      rw [List.foldlM_cons, hnext]
      exact ht'

end Placed

/-- Commands none of which clashes with another can be placed below a root, and behind them
all declared groups. -/
theorem exists_placed {members : List CommandInfo} (hlength : ∀ c ∈ members, c.sub.length ≤ 2)
    (hnames : ∀ c ∈ members, c.sub ≠ [] →
      (v.shownParams c).Pairwise fun p q => Text.asciiEq p.name q.name = false)
    (hapart : members.Pairwise fun c d => ¬ Clash c d) (declared : List Group)
    (name description : String) :
    ∃ placed t,
      members.foldlM (v.place declared false) (Tree.new name description) = .ok placed ∧
        declared.foldlM (placeGroup declared) placed = .ok t ∧
        v.Placed (Tree.new name description) members declared members
          (members.filterMap groupWord? ++ declared.map groupName) t := by
  have hnew := Placed.new v members declared name description
  obtain ⟨placed, hall⟩ := hnew.exists_placeAll (fun _ hc => hc) hlength hnames hapart
  obtain ⟨t, hgrouped⟩ := exists_foldlM_eq_ok
    (fun g (_ : g ∈ declared) t => exists_placeGroup t g) placed
  exact ⟨placed, t, hall, hgrouped, (hnew.placeAll (fun _ hc => hc) hall).placeGroups hgrouped⟩

end Vocabulary

end ChatCommands.Schema
