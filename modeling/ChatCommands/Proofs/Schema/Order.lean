import ChatCommands.Proofs.Schema.Groups
import ChatCommands.Proofs.Schema.Progress
import ChatCommands.Proofs.Schema.Reorder

/-!
# The order of declarations

Which commands and groups are placed in a tree determines the tree up to the order of
subcommands and groups.  Whether they can be placed does not depend on their order either,
as long as no two commands share a path.  So commands are laid out in every order or in
none, and always to the same tree.
-/

namespace ChatCommands.Schema

namespace Vocabulary

variable {v : Vocabulary} {start t t' : Tree} {declared groups : List Group} {root : String}
  {members members' done done' : List CommandInfo} {words words' : List String}

/-! ## Placed alike -/

theorem Bears.mono {commands commands' : List CommandInfo} {bare : Bool} {i : Nat}
    {kind : NodeKind} (h : v.Bears commands bare t i kind) (hsub : commands ⊆ commands') :
    v.Bears commands' bare t i kind := by
  have hshows : (∃ c ∈ commands, v.Shows t i (v.shownParams c)) →
      ∃ c ∈ commands', v.Shows t i (v.shownParams c) := by
    rintro ⟨c, hc, hs⟩
    exact ⟨c, hsub hc, hs⟩
  cases kind with
  | root =>
      cases bare with
      | true => exact hshows h
      | false => exact h
  | group => exact h
  | subcommand => exact hshows h
  | parameter => exact h

/-- In which order commands and words were placed makes no difference to what holds of a
tree. -/
theorem Placed.congr (h : v.Placed start members declared done words t) (hmembers : members ⊆ members')
    (hdone : done.Perm done') (hwords : ∀ word, word ∈ words ↔ word ∈ words') :
    v.Placed start members' declared done' words' t := by
  constructor
  case grown =>
    exact ⟨h.grown.linked, h.grown.kind_root, fun hn hi => (h.grown.bears hn hi).mono hmembers⟩
  case growsTo => exact h.growsTo
  case complete => exact fun c hc => h.complete c (hdone.mem_iff.mpr hc)
  case sound =>
    intro i n hn hkind
    obtain ⟨c, hc, hleads⟩ := h.sound hn hkind
    exact ⟨c, hdone.mem_iff.mp hc, hleads⟩
  case group =>
    intro i n hn hkind
    obtain ⟨hholds, hword⟩ := h.group hn hkind
    exact ⟨hholds, (hwords _).mp hword⟩
  case realised => exact fun word hword => h.realised word ((hwords word).mpr hword)
  case apart => exact h.apart.perm hdone fun hclash hclash' => hclash hclash'.symm

/-! ## The same spots in two trees -/

/-- Nodes of two trees below which the same words have their spots: both are the root or
the node of one group. -/
inductive Across (declared : List Group) (t t' : Tree) : Nat → Nat → Prop
  | root : Across declared t t' 0 0
  | group {i j : Nat} {name : String} (left : t.Holds i (groupNode declared name))
      (right : t'.Holds j (groupNode declared name)) : Across declared t t' i j

theorem Across.symm {i j : Nat} (h : Across declared t t' i j) : Across declared t' t j i := by
  cases h with
  | root => exact .root
  | group left right => exact .group right left

namespace Placed

theorem spot_across (h : v.Placed start members declared done words t) {i j : Nat}
    (hij : Across declared t t' i j) {sub : List String} {name : String}
    (hspot : Spot declared t sub i name) : Spot declared t' sub j name := by
  cases hij with
  | root =>
      rw [h.sub_eq_of_spot hspot]
      exact .root
  | group left right =>
      obtain ⟨word, rfl, named⟩ := h.exists_words left hspot
      exact .group named right

/-! ## Equal trees -/

theorem sameUpToOrder_parameter (h : v.Placed start members declared done words t)
    (h' : v.Placed start members declared done words t') {i j : Nat} {x y : Node}
    (hx : t.node? i = some x) (hy : t'.node? j = some y) (hfields : x.unlinked = y.unlinked)
    (hkind : x.kind = .parameter) : t.SameUpToOrder t' i j := by
  have hkind' : y.kind = .parameter := (Node.unlinked_eq_iff.mp hfields).1.symm.trans hkind
  refine .of_perm h.grown.linked h'.grown.linked hx hy hfields (List.Perm.refl _) (.inl rfl) ?_
  rw [h.grown.childrenOf_eq_nil hx hkind, h'.grown.childrenOf_eq_nil hy hkind']
  exact .nil

/-- A command leads to the same with the same parameters in both trees. -/
theorem sameUpToOrder_subcommand (h : v.Placed start members declared done words t)
    (h' : v.Placed start members declared done words t') {c : CommandInfo} {i j : Nat}
    (hi : v.Leads declared t c i) (hj : v.Leads declared t' c j) : t.SameUpToOrder t' i j := by
  obtain ⟨parent, name, hspot, hat⟩ := hi
  obtain ⟨parent', name', hspot', hat'⟩ := hj
  obtain rfl : name = name' :=
    Option.some.inj (hspot.getLast?_eq.symm.trans hspot'.getLast?_eq)
  obtain ⟨children, hn⟩ := hat.holds
  obtain ⟨children', hn'⟩ := hat'.holds
  have hrow : (t.childrenOf i).map (·.2.unlinked) = (t'.childrenOf j).map (·.2.unlinked) := by
    have hshows := congrArg (List.map Node.unlinked) hat.shows
    have hshows' := congrArg (List.map Node.unlinked) hat'.shows
    rw [List.map_map, List.map_map] at hshows hshows'
    exact hshows.trans hshows'.symm
  have hall : List.Forall₂ (· = ·) ((t.childrenOf i).map (·.2.unlinked))
      ((t'.childrenOf j).map (·.2.unlinked)) := List.forall₂_eq_eq_eq ▸ hrow
  rw [List.forall₂_map_left_iff, List.forall₂_map_right_iff] at hall
  refine .of_perm h.grown.linked h'.grown.linked hn hn' rfl (List.Perm.refl _) (.inl rfl) ?_
  refine forall₂_imp_of_mem hall fun x hx y hy hfields => ?_
  obtain ⟨hx', -⟩ := h.grown.linked.mem_childrenOf_iff.mp hx
  obtain ⟨hy', -⟩ := h'.grown.linked.mem_childrenOf_iff.mp hy
  exact h.sameUpToOrder_parameter h' hx' hy' hfields (hat.shows.kind_eq x hx)

theorem exists_same_subcommand (h : v.Placed start members declared done words t)
    (h' : v.Placed start members declared done words t') {i j : Nat}
    (hij : Across declared t t' i j) {child : Nat × Node} (hchild : child ∈ t.childrenOf i)
    (hkind : child.2.kind = .subcommand) :
    ∃ other ∈ t'.childrenOf j, child.2.name = other.2.name ∧ other.2.kind = .subcommand ∧
      t.SameUpToOrder t' child.1 other.1 := by
  have hlinked := h.grown.linked
  obtain ⟨c, hc, hleads⟩ := h.sound (hlinked.mem_childrenOf_iff.mp hchild).1 hkind
  have hspot := h.spot_across hij (hleads.spot hlinked hchild)
  obtain ⟨other, hother, hname, hother', hleads'⟩ := h'.exists_child_of_spot hc hspot
  exact ⟨other, hother, hname.symm, hother', h.sameUpToOrder_subcommand h' hleads hleads'⟩

/-- A group has the same subcommands in both trees. -/
theorem sameUpToOrder_group (h : v.Placed start members declared done words t)
    (h' : v.Placed start members declared done words t') {name : String} {i j : Nat}
    (hi : t.Holds i (groupNode declared name)) (hj : t'.Holds j (groupNode declared name)) :
    t.SameUpToOrder t' i j := by
  have hij : Across declared t t' i j := .group hi hj
  have hsub : ∀ child ∈ t.childrenOf i, child.2.kind = .subcommand :=
    fun child hchild => h.kind_of_group_child hi hchild
  have hsub' : ∀ child ∈ t'.childrenOf j, child.2.kind = .subcommand :=
    fun child hchild => h'.kind_of_group_child hj hchild
  obtain ⟨children, hn⟩ := hi
  obtain ⟨children', hn'⟩ := hj
  refine .of_names h.grown.linked h'.grown.linked hn hn' rfl (.inr rfl) ?_ ?_ ?_
  · intro child hchild hparameter
    rw [hsub child hchild] at hparameter
    cases hparameter
  · intro child hchild
    obtain ⟨other, hother, hname, -, hsame⟩ :=
      h.exists_same_subcommand h' hij hchild (hsub child hchild)
    exact ⟨other, hother, hname, hsame⟩
  · intro other hother
    obtain ⟨child, hchild, hname, -⟩ :=
      h'.exists_same_subcommand h hij.symm hother (hsub' other hother)
    exact ⟨child, hchild, hname.symm⟩

section Lowercase

variable (hdone : ∀ c ∈ done, ∀ word ∈ c.sub, Text.IsLower word)
  (hwords : ∀ word ∈ words, Text.IsLower word)

include hdone hwords

theorem exists_same_group (h : v.Placed start members declared done words t)
    (h' : v.Placed start members declared done words t') {child : Nat × Node}
    (hchild : child ∈ t.childrenOf 0) (hkind : child.2.kind = .group) :
    ∃ other ∈ t'.childrenOf 0, child.2.name = other.2.name ∧
      t.SameUpToOrder t' child.1 other.1 := by
  obtain ⟨hholds, hword⟩ := h.group (h.grown.linked.mem_childrenOf_iff.mp hchild).1 hkind
  obtain ⟨other, hother, hname⟩ := h'.exists_child_named hdone hwords hword
  obtain ⟨n, hn, hroot⟩ := h'.exists_root
  rcases h'.kind_of_child hn (.inl hroot) hother with hsub | ⟨hgroup, -⟩
  · -- A subcommand of that name would hang in both trees.
    obtain ⟨back, hback, hbackName, hbackKind, -⟩ :=
      h'.exists_same_subcommand h .root hother hsub
    have hsame : back = child := h.grown.linked.eq_of_asciiEq hback hchild (by
      rw [← hbackName, hname]
      exact Text.asciiEq_refl _)
    rw [hsame, hkind] at hbackKind
    cases hbackKind
  · have hholds' := (h'.group (h'.grown.linked.mem_childrenOf_iff.mp hother).1 hgroup).1
    rw [hname] at hholds'
    exact ⟨other, hother, hname.symm, h.sameUpToOrder_group h' hholds hholds'⟩

theorem exists_same_child (h : v.Placed start members declared done words t)
    (h' : v.Placed start members declared done words t') {child : Nat × Node}
    (hchild : child ∈ t.childrenOf 0) :
    ∃ other ∈ t'.childrenOf 0, child.2.name = other.2.name ∧
      t.SameUpToOrder t' child.1 other.1 := by
  obtain ⟨n, hn, hroot⟩ := h.exists_root
  rcases h.kind_of_child hn (.inl hroot) hchild with hsub | ⟨hgroup, -⟩
  · obtain ⟨other, hother, hname, -, hsame⟩ := h.exists_same_subcommand h' .root hchild hsub
    exact ⟨other, hother, hname, hsame⟩
  · exact h.exists_same_group hdone hwords h' hchild hgroup

/-- What is placed determines a tree up to order. -/
theorem sameUpToOrder (h : v.Placed start members declared done words t)
    (h' : v.Placed start members declared done words t') {n : Node}
    (hstart : start.node? 0 = some n) : t.SameUpToOrder t' t.root t'.root := by
  rw [h.grown.linked.root_eq, h'.grown.linked.root_eq]
  obtain ⟨children, hn⟩ := h.growsTo.holds (Tree.holds_of_node? hstart)
  obtain ⟨children', hn'⟩ := h'.growsTo.holds (Tree.holds_of_node? hstart)
  have hkind := h.grown.kind_node?_zero hn
  refine .of_names h.grown.linked h'.grown.linked hn hn' rfl (.inl hkind) ?_ ?_ ?_
  · intro child hchild hparameter
    rcases h.kind_of_child hn (.inl hkind) hchild with hsub | ⟨hgroup, -⟩
    · rw [hsub] at hparameter
      cases hparameter
    · rw [hgroup] at hparameter
      cases hparameter
  · exact fun child hchild => h.exists_same_child hdone hwords h' hchild
  · intro other hother
    obtain ⟨child, hchild, hname, -⟩ := h'.exists_same_child hdone hwords h hother
    exact ⟨child, hchild, hname.symm⟩

end Lowercase

end Placed

end Vocabulary

/-! ## Declarations in another order -/

/-- The only element that passes a test is found in every order. -/
theorem find?_eq_of_perm {α : Type} {p : α → Bool} {xs ys : List α} (hperm : xs.Perm ys)
    (hone : ∀ x ∈ xs, ∀ y ∈ xs, p x = true → p y = true → x = y) : xs.find? p = ys.find? p := by
  cases hx : xs.find? p with
  | none =>
      refine (List.find?_eq_none.mpr fun y hy => ?_).symm
      exact List.find?_eq_none.mp hx y (hperm.mem_iff.mpr hy)
  | some x =>
      have hmem := List.mem_of_find?_eq_some hx
      have hsome : (ys.find? p).isSome = true :=
        List.find?_isSome.mpr ⟨x, hperm.mem_iff.mp hmem, List.find?_some hx⟩
      obtain ⟨y, hy⟩ := Option.isSome_iff_exists.mp hsome
      have hmem' := hperm.mem_iff.mpr (List.mem_of_find?_eq_some hy)
      rw [hy, hone x hmem y hmem' (List.find?_some hx) (List.find?_some hy)]

theorem firstOfEachPath_eq_self {members : List CommandInfo}
    (h : members.Pairwise fun c d => c.path ≠ d.path) : firstOfEachPath members = members := by
  induction members with
  | nil => rfl
  | cons first rest ih =>
      obtain ⟨hfirst, hrest⟩ := List.pairwise_cons.mp h
      have hall : rest.filter (otherPath first) = rest := by
        refine List.filter_eq_self.mpr fun d hd => ?_
        simpa [otherPath] using (hfirst d hd).symm
      rw [firstOfEachPath_cons, hall, ih hrest]

namespace Vocabulary

variable {v : Vocabulary} {t : Tree} {root : String} {groups : List Group}
  {commands commands' : List CommandInfo}

theorem layout_congr (h : ofRoot root commands = ofRoot root commands') :
    v.layout root commands groups = v.layout root commands' groups := by
  have hmembers : commands.filter (·.root == root) = commands'.filter (·.root == root) := h
  rw [layout, layout, hmembers]

theorem firstOfEachPath_ofRoot (h : commands.Pairwise fun c d => c.path ≠ d.path) :
    firstOfEachPath (ofRoot root commands) = ofRoot root commands :=
  firstOfEachPath_eq_self (h.filter _)

theorem showsBare_eq_of_perm (hperm : commands.Perm commands') :
    showsBare root commands groups = showsBare root commands' groups := by
  rw [Bool.eq_iff_iff, showsBare_iff, showsBare_iff]
  simp only [hperm.mem_iff]

theorem rootAlone_eq_of_perm (hperm : commands.Perm commands')
    (hdistinct : ∀ c ∈ commands, ∀ d ∈ commands, c.path = d.path → c = d) :
    rootAlone root commands groups = rootAlone root commands' groups := by
  rw [rootAlone, rootAlone, rootDescription, rootDescription,
    find?_eq_of_perm (hperm.filter (·.root == root))]
  intro c hc d hd hempty hempty'
  obtain ⟨hc, hcroot⟩ := List.mem_filter.mp hc
  obtain ⟨hd, hdroot⟩ := List.mem_filter.mp hd
  simp only [beq_iff_eq, List.isEmpty_iff] at hcroot hdroot hempty hempty'
  exact hdistinct c hc d hd (by rw [CommandInfo.path, CommandInfo.path, hcroot, hdroot, hempty, hempty'])

/-- When the root shows the only command of its path, there is nothing to reorder. -/
theorem ofRoot_eq_of_perm (hperm : commands.Perm commands')
    (hdistinct : commands.Pairwise fun c d => c.path ≠ d.path)
    (hbare : showsBare root commands groups = true) :
    ofRoot root commands = ofRoot root commands' := by
  have hpath : ∀ c ∈ ofRoot root commands, c.path = [root] := by
    intro c hc
    obtain ⟨hmem, hroot⟩ := mem_ofRoot_iff.mp hc
    rw [CommandInfo.path, hroot, (showsBare_iff.mp hbare).2 c hmem hroot]
  have hmembers : (ofRoot root commands').Perm (ofRoot root commands) :=
    (hperm.filter (·.root == root)).symm
  rcases firstOfEachPath_of_path_eq hpath with hone | ⟨c, -, hone⟩
  all_goals
    rw [firstOfEachPath_ofRoot hdistinct] at hone
    rw [hone] at hmembers ⊢
  · exact hmembers.eq_nil.symm
  · exact (List.perm_singleton.mp hmembers).symm

/-- A layout that succeeds does so in every order, and gives the same tree. -/
theorem exists_layout_of_perm (hperm : commands.Perm commands')
    (hdistinct : commands.Pairwise fun c d => c.path ≠ d.path)
    (hlower : ∀ c ∈ commands, ∀ word ∈ c.path, Text.IsLower word)
    (hgroups : ∀ g ∈ groups, g.IsDeclared) (h : v.layout root commands groups = .ok t) :
    ∃ t', v.layout root commands' groups = .ok t' ∧ t.SameUpToOrder t' t.root t'.root := by
  cases hbare : showsBare root commands groups with
  | true =>
      rw [← layout_congr (ofRoot_eq_of_perm hperm hdistinct hbare)]
      obtain ⟨bare, hgrown⟩ := grown_layout h
      exact ⟨t, h, hgrown.linked.sameUpToOrder_refl t.node?_root⟩
  | false =>
      have hplaced := placed_layout h hbare
      obtain ⟨hchecked, -, -, -, hlimits⟩ := layout_eq_ok h
      have hsymm : Std.Symm fun c d : CommandInfo => c.path ≠ d.path := ⟨fun _ _ => Ne.symm⟩
      have hone : ∀ c ∈ commands, ∀ d ∈ commands, c.path = d.path → c = d := by
        intro c hc d hd hpath
        by_contra hne
        exact hdistinct.forall hc hd hne hpath
      have hmembers : (ofRoot root commands).Perm (ofRoot root commands') := hperm.filter _
      rw [firstOfEachPath_ofRoot hdistinct] at hplaced
      have hsub : ∀ c ∈ ofRoot root commands, ∀ word ∈ c.sub, Text.IsLower word :=
        fun c hc word hword =>
          hlower c (List.mem_filter.mp hc).1 word (List.mem_cons_of_mem _ hword)
      have hlength : ∀ c ∈ ofRoot root commands', c.sub.length ≤ 2 :=
        fun c hc => length_le_of_checkCommand (hchecked c (hmembers.mem_iff.mpr hc))
      -- The parameters of a command hang below one node of the first tree already.
      have hnames : ∀ c ∈ ofRoot root commands', c.sub ≠ [] →
          (v.shownParams c).Pairwise fun p q => Text.asciiEq p.name q.name = false := by
        intro c hc hne
        obtain ⟨i, parent, name, -, hat⟩ := hplaced.complete c (hmembers.mem_iff.mpr hc) hne
        exact hat.shows.pairwise_name hplaced.grown.linked
      have hapart := hplaced.apart.perm hmembers fun hclash hclash' => hclash hclash'.symm
      obtain ⟨placed, t', hall, hgrouped, hplaced'⟩ :=
        exists_placed hlength hnames hapart (groupsOf root groups) root
          (rootDescription root (ofRoot root commands) groups)
      have hwords : ∀ word,
          word ∈ (ofRoot root commands').filterMap groupWord? ++ (groupsOf root groups).map groupName ↔
            word ∈ (ofRoot root commands).filterMap groupWord? ++
              (groupsOf root groups).map groupName :=
        fun word => ((hmembers.symm.filterMap groupWord?).append_right _).mem_iff
      have hsame := hplaced.sameUpToOrder hsub
        (fun word hword => isLower_of_mem_words hsub hgroups hword)
        (hplaced'.congr hmembers.symm.subset hmembers.symm hwords) (Tree.node?_root _)
      refine ⟨t', layout_eq_ok_iff.mpr ⟨?_, placed, ?_, hgrouped, ?_⟩, hsame⟩
      · exact fun c hc => hchecked c (hmembers.mem_iff.mpr hc)
      · rw [firstOfEachPath_ofRoot (hdistinct.perm hperm Ne.symm), ← showsBare_eq_of_perm hperm,
          hbare, ← rootAlone_eq_of_perm hperm hone]
        exact hall
      · exact hsame.check_eq_ok hplaced'.grown.linked hlimits

/-- Commands of different paths are laid out in every order or in none, and the trees are
equal up to the order of subcommands and groups. -/
theorem layout_perm {commands commands' : List Command} (hcommands : ∀ c ∈ commands, c.IsDeclared)
    (hgroups : ∀ g ∈ groups, g.IsDeclared) (hperm : commands.Perm commands')
    (hdistinct : commands.Pairwise fun c d => c.path ≠ d.path) :
    (∃ t t', v.layout root (commands.map (·.toCommandInfo)) groups = .ok t ∧
        v.layout root (commands'.map (·.toCommandInfo)) groups = .ok t' ∧
        t.SameUpToOrder t' t.root t'.root) ∨
      ∃ e e', v.layout root (commands.map (·.toCommandInfo)) groups = .error e ∧
        v.layout root (commands'.map (·.toCommandInfo)) groups = .error e' := by
  have hinfos := hperm.map (·.toCommandInfo)
  have hpaths : (commands.map (·.toCommandInfo)).Pairwise fun c d => c.path ≠ d.path :=
    List.pairwise_map.mpr hdistinct
  have hlower := isLower_of_mem_map_toCommandInfo hcommands
  cases h : v.layout root (commands.map (·.toCommandInfo)) groups with
  | ok t =>
      obtain ⟨t', h', hsame⟩ := exists_layout_of_perm hinfos hpaths hlower hgroups h
      exact .inl ⟨t, t', rfl, h', hsame⟩
  | error e =>
      cases h' : v.layout root (commands'.map (·.toCommandInfo)) groups with
      | ok t' =>
          obtain ⟨t, ht, -⟩ := exists_layout_of_perm hinfos.symm (hpaths.perm hinfos Ne.symm)
            (fun c hc => hlower c (hinfos.mem_iff.mpr hc)) hgroups h'
          rw [h] at ht
          cases ht
      | error e' => exact .inr ⟨e, e', rfl, rfl⟩

/-- A group that is declared, and that the commands bring in first or last. -/
theorem layout_perm_role :
    let v : Vocabulary := ⟨.standard, .standard⟩
    let give := Catalog.plain "role" ["give"]
    let set := Catalog.plain "role" ["color", "set"]
    let drop := Catalog.plain "role" ["color", "drop"]
    let groups := [Group.declare "role color" "Colors" []]
    (∀ c ∈ [give, set, drop], c.IsDeclared) ∧ (∀ g ∈ groups, g.IsDeclared) ∧
      [give, set, drop].Perm [drop, give, set] ∧
      [give, set, drop].Pairwise (fun c d => c.path ≠ d.path) ∧
      ∃ t t', v.layout "role" ([give, set, drop].map (·.toCommandInfo)) groups = .ok t ∧
        v.layout "role" ([drop, give, set].map (·.toCommandInfo)) groups = .ok t' ∧
        t.SameUpToOrder t' t.root t'.root := by
  intro v give set drop groups
  have hcommands : ∀ c ∈ [give, set, drop], c.IsDeclared := by
    simp only [List.forall_mem_cons, List.not_mem_nil, false_imp_iff, implies_true, and_true]
    exact ⟨Catalog.isDeclared_plain_of_build "role give" rfl,
      Catalog.isDeclared_plain_of_build "role color set" rfl,
      Catalog.isDeclared_plain_of_build "role color drop" rfl⟩
  have hgroups : ∀ g ∈ groups, g.IsDeclared := by
    intro g hg
    rw [List.mem_singleton.mp hg]
    exact ⟨_, _, _, rfl⟩
  have hperm : ([give, set] ++ [drop]).Perm ([drop] ++ [give, set]) := List.perm_append_comm
  have hdistinct : [give, set, drop].Pairwise fun c d => c.path ≠ d.path := by decide +kernel
  refine ⟨hcommands, hgroups, hperm, hdistinct, ?_⟩
  rcases @layout_perm v "role" groups _ _ hcommands hgroups hperm hdistinct with
    hsame | ⟨e, -, h, -⟩
  · exact hsame
  · have hok : (v.layout "role" ([give, set, drop].map (·.toCommandInfo)) groups).isOk = true := by
      decide +kernel
    rw [h] at hok
    cases hok

end Vocabulary

end ChatCommands.Schema
